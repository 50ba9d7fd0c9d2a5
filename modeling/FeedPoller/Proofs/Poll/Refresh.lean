/-
What a refresh of all polls comes to.

A refresh asks for a run of every registration that may run and does not.  A second one, right
after the first, asks the same registrations again: each gets another timer in place of the one
before, and that is due at the same moment.  So any number of refreshes leaves one timer for each
of these registrations, and the others as they were.  `Refreshed` says so of two systems and
is transitive, and `refreshed_run` is the induction on the number.

The timers from before are not in the table any longer.  They may have gone off and wait for
their turn, but what begins a run is the table: `Foreign` is what keeps them from it for good.
-/
import FeedPoller.Proofs.Poll.Gates
import FeedPoller.Proofs.Poll.Rhythm
import FeedPoller.Proofs.Poll.Starts

namespace FeedPoller

theorem Instant.eq_of_after_zero {t u : Instant} (h : t.after? .zero = some u) : u = t := by
  unfold Instant.after? at h
  split at h
  · exact (Option.some.inj h).symm
  · exact absurd h (by simp)

namespace Coordinator

variable {c : Coordinator} {r q : Registration} {t : Timer}

theorem mem_refreshable : r ∈ c.refreshable ↔
    r ∈ c.registry ∧ r.isPaused c.gates = false ∧ r.inFlight = false := by
  simp [refreshable]

theorem refresh_eq (hd : c.disposed = false) :
    c.refresh.1 = c.refreshable.foldl (fun c r => c.schedule r .zero) c := by
  rw [refresh, if_neg (by simp [hd])]

/-! ### One refresh -/

theorem schedule_zero_timers (ht : t ∈ (c.schedule r .zero).timers) :
    t ∈ c.timers ∨ t.deadline = c.clock.now := by
  obtain ⟨-, e⟩ | ⟨-, deadline, hdeadline, e⟩ | ⟨-, -, e⟩ := schedule_cases c r .zero <;>
    rw [e] at ht
  · exact Or.inl ht
  · rcases List.mem_append.mp ht with ht | ht
    · exact Or.inl (mem_disarm.mp ht).1
    · rw [List.mem_singleton.mp ht]
      exact Or.inr (Instant.eq_of_after_zero hdeadline)
  · exact Or.inl (mem_disarm.mp ht).1

/-- What a refresh arms is due at once. -/
theorem refresh_timers (hd : c.disposed = false) (ht : t ∈ c.refresh.1.timers) :
    t ∈ c.timers ∨ t.deadline = c.clock.now := by
  rw [refresh_eq hd] at ht
  generalize c.refreshable = rs at ht
  induction rs generalizing c with
  | nil => exact Or.inl ht
  | cons r rest ih =>
    have hclock : (c.schedule r .zero).clock = c.clock := congrArg (·.2.1) schedule_setting
    have hd' : (c.schedule r .zero).disposed = false := by
      obtain ⟨_, _, _, -, -, e⟩ := schedule_shape c r .zero
      rw [e]
      exact hd
    rcases ih hd' ht with ht | ht
    · exact schedule_zero_timers ht
    · exact Or.inr (hclock ▸ ht)

/-- Whoever is refreshed has a timer afterwards, and whoever is not is as before. -/
theorem refresh_touched (h : c.Tidy) (hd : c.disposed = false)
    (hnow : c.clock.now.nanos < Instant.horizon) (hq : q ∈ c.refresh.1.registry) :
    (q ∈ c.registry ∧ q ∉ c.refreshable) ∨
    (q.timer.isSome ∧ q.isPaused c.gates = false ∧ ∃ r ∈ c.refreshable, q.id = r.id) := by
  rw [refresh_eq hd] at hq
  refine foldl_touched (f := fun c r => c.schedule r .zero) (P := (· ∈ c.refreshable))
    (G := fun q => q.timer.isSome ∧ q.isPaused c.gates = false ∧ ∃ r ∈ c.refreshable, q.id = r.id)
    (fun _ _ => schedule_setting) (fun _ _ _ => mem_schedule_of_ne) ?_ (h.filter_ids _)
    (fun r hr => (mem_refreshable.mp hr).1) (fun r hr => hr) q hq
  intro c' hset r hr q hq
  obtain ⟨-, hp, hidle⟩ := mem_refreshable.mp hr
  have hclock : c'.clock = c.clock := congrArg (·.2.1) hset
  obtain ⟨hflight, -⟩ | ⟨-, deadline, -, e⟩ | ⟨-, hnone, -⟩ := schedule_cases c' r .zero
  · exact absurd (hidle.symm.trans hflight) (by simp)
  · rw [e] at hq
    rcases mem_put.mp hq with hq | ⟨rfl, -⟩
    · exact Or.inl hq
    · exact Or.inr ⟨rfl, hp, r, hr, rfl⟩
  · rw [hclock, Instant.after_zero hnow] at hnone
    exact absurd hnone (by simp)

/-- Whoever may not run, or runs already, is left as it is. -/
theorem refresh_spares (h : c.Tidy) (hd : c.disposed = false)
    (hnow : c.clock.now.nanos < Instant.horizon) (hq : q ∈ c.registry) (hno : q ∉ c.refreshable) :
    q ∈ c.refresh.1.registry := by
  obtain ⟨q', hq', ha⟩ := ((refresh_moves h).spec h).2.2.successor hq
  have hid : q'.id = q.id := Registration.id_of_account ha
  rcases refresh_touched h hd hnow hq' with ⟨hold, -⟩ | ⟨-, -, r, hr, hrid⟩
  · rwa [← h.uniqueIds.eq hold hq hid]
  · rw [h.uniqueIds.eq hq (mem_refreshable.mp hr).1 (hid.symm.trans hrid)] at hno
    exact absurd hr hno

/-- Whoever is refreshed gets a timer with a new number, which is due at once. -/
theorem refresh_urges (h : c.Tidy) (hd : c.disposed = false)
    (hnow : c.clock.now.nanos < Instant.horizon) (hr : r ∈ c.refreshable) :
    ∃ r' ∈ c.refresh.1.registry, r'.account = r.account ∧ r'.isPaused c.gates = false ∧
      ∃ t ∈ c.refresh.1.timers, t.poll = r'.id ∧ t.deadline = c.clock.now ∧ c.armed ≤ t.number := by
  obtain ⟨hmem, hp, hidle⟩ := mem_refreshable.mp hr
  obtain ⟨htidy, hadv, hrear⟩ := (refresh_moves h).spec h
  obtain ⟨r', hr', ha⟩ := hrear.successor hmem
  have hnew : r' ∉ c.registry := by
    intro hold
    rw [h.uniqueIds.eq hold hmem (Registration.id_of_account ha)] at hr'
    exact refresh_gone h hmem hd hp hidle hr'
  obtain ⟨hold, -⟩ | ⟨htimer, hp', -⟩ := refresh_touched h hd hnow hr'
  · exact absurd hold hnew
  · obtain ⟨n, hn⟩ := Option.isSome_iff_exists.mp htimer
    obtain ⟨t, ht, -, hpoll⟩ := htidy.own r' hr' n hn
    have harmed : c.armed ≤ t.number := by
      rcases hadv.kept h htidy ht hr' hpoll.symm with harmed | ⟨-, hold⟩
      · exact harmed
      · exact absurd hold hnew
    refine ⟨r', hr', ha, hp', t, ht, hpoll, ?_, harmed⟩
    rcases refresh_timers hd ht with hold | hdue
    · exact absurd (h.numbered t hold) (Nat.not_lt_of_le harmed)
    · exact hdue

/-- A timer that a refresh leaves is from before, or it was armed for one that is refreshed. -/
theorem refresh_owners (h : c.Tidy) (hd : c.disposed = false)
    (hnow : c.clock.now.nanos < Instant.horizon) (ht : t ∈ c.refresh.1.timers) :
    t ∈ c.timers ∨ ∃ r ∈ c.refreshable, t.poll = r.id := by
  obtain ⟨htidy, hadv, -⟩ := (refresh_moves h).spec h
  obtain ⟨q, hq, hid, -⟩ := htidy.owner t ht
  rcases refresh_touched h hd hnow hq with ⟨hold, -⟩ | ⟨-, -, r, hr, hrid⟩
  · -- The registration is as before, so it remembers a timer that was there before.
    obtain ⟨u, hu, hnumber, -⟩ := h.own q hold _ (htidy.remembered ht hq hid).1
    rcases hadv.timers t ht with ht | ⟨hnew, -⟩
    · exact Or.inl ht
    · exact absurd (hnumber ▸ h.numbered u hu) (Nat.not_lt_of_le hnew)
  · exact Or.inr ⟨r, hr, hid.symm.trans hrid⟩

end Coordinator

namespace System

open Coordinator

variable {s s' s'' : System} {r q : Registration} {t : Timer} {e : Event} {n id : Nat}

/-! ### Any number of refreshes -/

/-- What refreshes make of a system. -/
structure Refreshed (s s' : System) : Prop where
  rearranged : Rearranged s.coordinator s'.coordinator
  gates : s'.coordinator.gates = s.coordinator.gates
  alive : s'.alive = s.alive
  armed : s.coordinator.armed ≤ s'.coordinator.armed
  /-- Whoever may run and does not has one timer, which is due at once. -/
  urged : ∀ r ∈ s.coordinator.refreshable, ∃ r' ∈ s'.coordinator.registry,
    r'.account = r.account ∧ r'.isPaused s'.coordinator.gates = false ∧
      ∃ t ∈ s'.coordinator.timers, t.poll = r'.id ∧ t.deadline = s.now ∧
        s.coordinator.armed ≤ t.number
  spared : ∀ q ∈ s.coordinator.registry, q ∉ s.coordinator.refreshable →
    q ∈ s'.coordinator.registry
  owners : ∀ t ∈ s'.coordinator.timers, t ∈ s.coordinator.timers ∨
    ∃ r ∈ s.coordinator.refreshable, t.poll = r.id

theorem Sound.refreshed (hs : s.Sound) (halive : s.alive = true)
    (hd : s.coordinator.disposed = false) (hnow : s.now.nanos < Instant.horizon) :
    Refreshed s (s.step .refresh) := by
  obtain ⟨-, hadv, hrear⟩ := (refresh_moves hs.tidy).spec hs.tidy
  have hstep : s.step .refresh = { s with coordinator := s.coordinator.refresh.1 } :=
    if_pos halive
  rw [hstep]
  have hgates : s.coordinator.refresh.1.gates = s.coordinator.gates := refresh_gates
  refine ⟨hrear, hgates, rfl, hadv.armed, fun r hr => ?_, fun q hq hno => ?_, fun t ht => ?_⟩
  · rw [hgates]
    exact refresh_urges hs.tidy hd hnow hr
  · exact refresh_spares hs.tidy hd hnow hq hno
  · exact refresh_owners hs.tidy hd hnow ht

/-- Whoever may run and does not is still such a one after refreshes, and nobody else is. -/
theorem Refreshed.refreshable (h : Refreshed s s') (hs' : s'.Sound)
    (hr : r ∈ s'.coordinator.refreshable) : ∃ p ∈ s.coordinator.refreshable, p.id = r.id := by
  obtain ⟨hmem, hp, hidle⟩ := mem_refreshable.mp hr
  obtain ⟨p, hpmem, ha⟩ := h.rearranged.origin hmem
  have hid : p.id = r.id := Registration.id_of_account ha
  by_cases hin : p ∈ s.coordinator.refreshable
  · exact ⟨p, hin, hid⟩
  · rw [← hs'.tidy.uniqueIds.eq (h.spared p hpmem hin) hmem hid, h.gates] at hp
    rw [← hs'.tidy.uniqueIds.eq (h.spared p hpmem hin) hmem hid] at hidle
    exact absurd (mem_refreshable.mpr ⟨hpmem, hp, hidle⟩) hin

theorem Refreshed.trans (h : Refreshed s s') (h' : Refreshed s' s'') (hs : s.Sound)
    (hs' : s'.Sound) : Refreshed s s'' where
  rearranged := h.rearranged.trans h'.rearranged
  gates := h'.gates.trans h.gates
  alive := h'.alive.trans h.alive
  armed := Nat.le_trans h.armed h'.armed
  urged := by
    intro r hr
    obtain ⟨r', hr', ha, hp, -⟩ := h.urged r hr
    have hidle : r'.inFlight = false :=
      (Registration.eq_of_account (·.inFlight) (fun _ => rfl) ha).trans (mem_refreshable.mp hr).2.2
    obtain ⟨r'', hr'', ha', hp', t, ht, hpoll, hdue, harmed⟩ :=
      h'.urged r' (mem_refreshable.mpr ⟨hr', hp, hidle⟩)
    have hnow : s'.now = s.now := congrArg Clock.now h.rearranged.clock
    exact ⟨r'', hr'', ha'.trans ha, hp', t, ht, hpoll, hdue.trans hnow,
      Nat.le_trans h.armed harmed⟩
  spared := by
    intro q hq hno
    refine h'.spared q (h.spared q hq hno) fun hin => ?_
    obtain ⟨p, hp, hid⟩ := h.refreshable hs' hin
    rw [hs.tidy.uniqueIds.eq (mem_refreshable.mp hp).1 hq hid] at hp
    exact hno hp
  owners := by
    intro t ht
    rcases h'.owners t ht with ht | ⟨r, hr, hpoll⟩
    · exact h.owners t ht
    · obtain ⟨p, hp, hid⟩ := h.refreshable hs' hr
      exact Or.inr ⟨p, hp, hpoll.trans hid.symm⟩

/-- **Any number of refreshes comes to what one does.** -/
theorem Sound.refreshed_run (hs : s.Sound) (halive : s.alive = true)
    (hd : s.coordinator.disposed = false) (hnow : s.now.nanos < Instant.horizon) (m : Nat) :
    Refreshed s (s.run (List.replicate (m + 1) .refresh)) := by
  induction m generalizing s with
  | zero => exact hs.refreshed halive hd hnow
  | succ m ih =>
    have hfirst := hs.refreshed halive hd hnow
    have hs' := hs.step .refresh
    refine hfirst.trans
      (ih hs' (hfirst.alive.trans halive) (hfirst.rearranged.disposed.trans hd) ?_) hs hs'
    rw [System.now, hfirst.rearranged.clock]
    exact hnow

/-- After refreshes a registration that may run and does not is ready to run at once. -/
theorem Refreshed.ready (h : Refreshed s s') (hs' : s'.Sound) (hprompt : s'.coordinator.Prompt)
    (hr : r ∈ s.coordinator.refreshable) :
    ∃ r' t, s'.Ready r' t ∧ r'.id = r.id ∧ r'.options = r.options ∧ t.deadline = s.now ∧
      s.coordinator.armed ≤ t.number := by
  obtain ⟨r', hr', ha, hp, t, ht, hpoll, hdue, harmed⟩ := h.urged r hr
  have hidle : r'.inFlight = false :=
    (Registration.eq_of_account (·.inFlight) (fun _ => rfl) ha).trans (mem_refreshable.mp hr).2.2
  exact ⟨r', t, ⟨⟨hr', hp, hprompt r' hr' hidle⟩, hs'.timedBy ht hr' hpoll.symm⟩,
    Registration.id_of_account ha, Registration.eq_of_account (·.options) (fun _ => rfl) ha, hdue,
    harmed⟩

/-! ### Timers that begin nothing -/

/-- A timer that has been armed, and is not armed for a registration now or later. -/
structure Foreign (s : System) (n id : Nat) : Prop where
  number : n < s.coordinator.armed
  poll : ∀ t ∈ s.coordinator.timers, t.number = n → t.poll ≠ id

theorem Foreign.step (h : s.Foreign n id) (hs : s.Sound) (e : Event) : (s.step e).Foreign n id := by
  have hfrom := (hs.outcome e).timersFrom hs
  refine ⟨Nat.lt_of_lt_of_le h.number hfrom.armed, fun t ht hn => ?_⟩
  rcases hfrom.timers t ht with ht | ⟨hnew, -⟩
  · exact h.poll t ht hn
  · have := h.number
    omega

theorem Foreign.run (h : s.Foreign n id) (hs : s.Sound) (events : List Event) :
    (s.run events).Foreign n id :=
  hs.invariant (I := (·.Foreign n id)) (fun hs e h => h.step hs e) h events

/-- Such a timer begins no run of the registration, whether or not it has gone off already. -/
theorem Foreign.none (h : s.Foreign n id) (hs : s.Sound) (events : List Event) :
    ∀ b ∈ s.beginningsOf id events, b.timer ≠ n := by
  induction events generalizing s with
  | nil => exact fun b hb => absurd hb List.not_mem_nil
  | cons e rest ih =>
    intro b hb hn
    rw [beginningsOf_cons] at hb
    rcases List.mem_append.mp hb with hb | hb
    · obtain ⟨hb, hid⟩ := List.mem_filter.mp hb
      obtain ⟨r, t, -, -, hright⟩ := hs.begun_cases (Option.mem_toList.mp hb)
      have hpoll : t.poll = id := hright.timed.poll_eq.trans (hright.id.trans (eq_of_beq hid))
      exact h.poll t hright.timed.mem (hright.number.trans hn) hpoll
    · exact ih (h.step hs e) (hs.step e) b hb hn

/-- A registration that is refreshed has a new timer and no other. -/
theorem Refreshed.new_timer (h : Refreshed s s') (hs' : s'.Sound)
    (hr : r ∈ s.coordinator.refreshable) (ht : t ∈ s'.coordinator.timers) (hpoll : t.poll = r.id) :
    s.coordinator.armed ≤ t.number := by
  obtain ⟨r', hr', ha, -, u, hu, hupoll, -, harmed⟩ := h.urged r hr
  have hid : r'.id = r.id := Registration.id_of_account ha
  have hremembers := (hs'.tidy.remembered ht hr' (hid.trans hpoll.symm)).1
  have hremembers' := (hs'.tidy.remembered hu hr' hupoll.symm).1
  rwa [Option.some.inj (hremembers.symm.trans hremembers')]

/-- The timer that a registration had before it was refreshed is nobody's any longer. -/
theorem Refreshed.foreign_old (h : Refreshed s s') (hs : s.Sound) (hs' : s'.Sound)
    (hr : r ∈ s.coordinator.refreshable) (ht : t ∈ s.coordinator.timers) (hpoll : t.poll = r.id)
    (id : Nat) : s'.Foreign t.number id := by
  have hn := hs.tidy.numbered t ht
  refine ⟨Nat.lt_of_lt_of_le hn h.armed, fun u hu hnumber _ => ?_⟩
  rcases h.owners u hu with hold | ⟨p, hp, hppoll⟩
  · rw [← hs.tidy.number_unique hold ht hnumber] at hpoll
    have := h.new_timer hs' hr hu hpoll
    omega
  · have := h.new_timer hs' hp hu hppoll
    omega

/-- The timers that refreshes arm are nobody's whom they do not apply to. -/
theorem Refreshed.foreign_new (h : Refreshed s s') (hs : s.Sound)
    (hq : q ∈ s.coordinator.registry) (hno : q ∉ s.coordinator.refreshable)
    (hold : s.coordinator.armed ≤ n) (hn : n < s'.coordinator.armed) : s'.Foreign n q.id := by
  refine ⟨hn, fun t ht hnumber hpoll => ?_⟩
  rcases h.owners t ht with ht | ⟨r, hr, hrpoll⟩
  · have := hs.tidy.numbered t ht
    omega
  · rw [hs.tidy.uniqueIds.eq hq (mem_refreshable.mp hr).1 (hpoll.symm.trans hrpoll)] at hno
    exact hno hr

/-! ### What refreshes make begin -/

/--
What refreshes come to for a registration that may run and does not: exactly one run of it begins
at once, and after a run the next one begins an interval later, if nothing else is asked for.
-/
structure RunsOnce (s done : System) (r : Registration) : Prop where
  /-- When all that is due has had its turn, a timer of the refreshes has begun a run. -/
  once : ∃ n, s.coordinator.armed ≤ n ∧ n < done.coordinator.armed ∧
    ∀ rest : List Event, (∀ e ∈ rest, e.Unasked) → (done.run rest).now = s.now →
      (done.run rest).dueTimers = [] →
      done.beginningsOf r.id rest = [⟨s.now, n, ⟨r.id, r.key⟩⟩]
  /-- The timer from before is gone for good, whatever comes. -/
  old : ∀ t ∈ s.coordinator.timers, t.poll = r.id → ∀ events : List Event,
    t ∉ (done.run events).coordinator.timers ∧ t.number ∉ done.starts events
  next : ∀ rest : List Event, (∀ e ∈ rest, e.Unasked) →
    ∀ run ∈ (done.run rest).runs, run.id = r.id → ∀ failed,
      ((done.run rest).step (.finish run.id failed)).BeginsNext ⟨r.id, r.key⟩
        ((done.run rest).now.after? r.options.interval)

/-- What refreshes come to for any other registration: no run of it is due to their timers. -/
structure LeftAlone (s done : System) (q : Registration) : Prop where
  kept : q ∈ done.coordinator.registry
  none : ∀ events : List Event, ∀ b ∈ done.beginningsOf q.id events,
    ¬ (s.coordinator.armed ≤ b.timer ∧ b.timer < done.coordinator.armed)

theorem Refreshed.runsOnce (h : Refreshed s s') (hs : s.Sound) (hs' : s'.Sound)
    (hf : s'.coordinator.Faultless) (hprompt : s'.coordinator.Prompt)
    (hr : r ∈ s.coordinator.refreshable) : RunsOnce s s' r := by
  obtain ⟨r', t, hready, hid, hoptions, hdue, harmed⟩ := h.ready hs' hprompt hr
  have hkey : r'.key = r.key := congrArg PollOptions.key hoptions
  refine ⟨⟨t.number, harmed, hs'.tidy.numbered t hready.timed.mem, ?_⟩, ?_, ?_⟩
  · intro rest hrest hend hsettled
    have honce := hready.once hs' hf hrest (hend.trans hdue.symm) hsettled
    rwa [hid, hkey, hdue] at honce
  · intro u hu hpoll events
    have hforeign := h.foreign_old hs hs' hr hu hpoll
    refine ⟨fun hin => ((hforeign u.poll).run hs' events).poll u hin rfl rfl, fun hstart => ?_⟩
    rw [← beginnings_timers] at hstart
    obtain ⟨b, hb, hnumber⟩ := List.mem_map.mp hstart
    refine (hforeign b.run.id).none hs' events b ?_ hnumber
    exact List.mem_filter.mpr ⟨hb, beq_self_eq_true _⟩
  · intro rest hrest run hrun hrunid failed
    obtain ⟨q, hfree, hqid, hqoptions⟩ := hready.free.run hs' hrest
    have hf' := hs'.invariant (I := fun s => s.coordinator.Faultless)
      (fun hs e h => hs.faultless_step h e) hf rest
    have hqkey : q.key = r.key := congrArg PollOptions.key (hqoptions.trans hoptions)
    have hnext := hfree.beginsNext (hs'.run rest) hf' hrun
      (hrunid.trans (hqid.trans hid).symm) failed
    rwa [hqid, hid, hqkey, hqoptions, hoptions] at hnext

theorem Refreshed.leftAlone (h : Refreshed s s') (hs : s.Sound) (hs' : s'.Sound)
    (hq : q ∈ s.coordinator.registry) (hno : q ∉ s.coordinator.refreshable) :
    LeftAlone s s' q where
  kept := h.spared q hq hno
  none := by
    intro events b hb ⟨hold, hnew⟩
    exact (h.foreign_new hs hq hno hold hnew).none hs' events b hb rfl

end System

end FeedPoller
