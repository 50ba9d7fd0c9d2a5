/-
No run starts without authority.

A run starts when a timer has its turn, and a turn may come long after the timer went off.
What makes the start rightful is that the registration still has that very timer.  So most of
this file is about the time between the arming of a timer and its turn: as long as the
timer is in the table, its registration has not been touched at all.  Events that are about
a registration leave nothing of it as it was, so none has happened since (`disturbed`).

Nothing is asked of the history but for one thing, and that only where the time of the
start is concerned.  The clock has to be a virtual one, which stops at every deadline on its
way; then a timer has its turn at its deadline or not at all.
-/
import FeedPoller.Proofs.Poll.History
import Mathlib.Data.List.Induction

namespace FeedPoller

/-- Whole milliseconds from the origin, a part of one counted whole. -/
def Instant.millisUp (t : Instant) : Nat := (t.nanos + 999999) / 1000000

theorem Instant.millisUp_mono {t u : Instant} (h : t ≤ u) : t.millisUp ≤ u.millisUp :=
  Nat.div_le_div_right (Nat.add_le_add_right h _)

/-- Another run of a registration has been asked for, or its plans have been forgotten. -/
def Registration.Replanned (r q : Registration) : Prop :=
  q.id = r.id ∧ (r.inFlight = true ∨ r.epoch < q.epoch)

namespace Coordinator

variable {c c' : Coordinator} {r q : Registration} {t : Timer} {d : Duration}

/-! ### A timer and its registration stay together -/

/-- As long as a timer is in the table its registration is left as it is. -/
theorem Advances.kept (ha : Advances c c') (h : c.Tidy) (h' : c'.Tidy) (ht : t ∈ c'.timers)
    (hr : r ∈ c'.registry) (hid : r.id = t.poll) :
    c.armed ≤ t.number ∨ (t ∈ c.timers ∧ r ∈ c.registry) := by
  rcases ha.timers t ht with htc | ⟨hnew, -⟩
  · right
    refine ⟨htc, ?_⟩
    obtain ⟨q, hq, hqid, hqt, hqe⟩ := h.owner t htc
    obtain ⟨hrt, hre⟩ := h'.remembered ht hr hid
    rcases ha.registry r hr with hfresh | ⟨p, hp, hpid, hadv⟩
    · have hlt := h.fresh q hq
      omega
    · obtain rfl : p = q := h.uniqueIds.eq hp hq (hpid.trans (hid.trans hqid.symm))
      cases hadv with
      | same hs => exact hs ▸ hp
      | replanned hlt => omega
      | idle _ hnone _ => exact absurd (hqt.symm.trans hnone) (by simp)
  · exact Or.inl hnew

/-! ### Planning anew -/

theorem schedule_replans (hq : q ∈ (c.schedule r d).registry) :
    (q ∈ c.registry ∧ q.id ≠ r.id) ∨ r.Replanned q := by
  obtain ⟨hf, e⟩ | ⟨-, deadline, -, e⟩ | ⟨-, -, e⟩ := schedule_cases c r d <;> rw [e] at hq <;>
    rcases mem_put.mp hq with hq | ⟨rfl, -⟩
  · exact Or.inl hq
  · exact Or.inr ⟨rfl, Or.inl hf⟩
  · exact Or.inl hq
  · exact Or.inr ⟨rfl, Or.inr (Nat.lt_succ_self _)⟩
  · exact Or.inl hq
  · exact Or.inr ⟨rfl, Or.inr (Nat.lt_succ_self _)⟩

theorem resumeOne_replans {jitter : Bool} (hq : q ∈ (resumeOne jitter c r).registry) :
    (q ∈ c.registry ∧ q.id ≠ r.id) ∨ r.Replanned q := by
  obtain ⟨draws, e⟩ := c.resumeDelay_draws jitter
  have := schedule_replans hq
  rwa [e] at this

theorem suspend_replans (hq : q ∈ (c.suspend r).registry) :
    (q ∈ c.registry ∧ q.id ≠ r.id) ∨ r.Replanned q := by
  rcases mem_put.mp hq with hq | ⟨rfl, -⟩
  · exact Or.inl hq
  · exact Or.inr ⟨rfl, Or.inr (Nat.lt_succ_self _)⟩

/-- Nothing that was idle and has been planned anew is what it was. -/
theorem replanned_ne (hq : (r ∈ c.registry ∧ r.id ≠ q.id) ∨ q.Replanned r) (hid : r.id = q.id)
    (hf : q.inFlight = false) (he : q.epoch = r.epoch) : False := by
  rcases hq with ⟨-, hne⟩ | ⟨-, hrun | hlt⟩
  · exact hne hid
  · exact absurd (hf.symm.trans hrun) (by simp)
  · omega

/-- An idle registration that is gone through is not what it was. -/
theorem foldl_gone {f : Coordinator → Registration → Coordinator} {rs : List Registration}
    (same : ∀ c r, (f c r).setting = c.setting)
    (others : ∀ c r q, q ∈ c.registry → q.id ≠ r.id → q ∈ (f c r).registry)
    (step : ∀ c r q, q ∈ (f c r).registry → (q ∈ c.registry ∧ q.id ≠ r.id) ∨ r.Replanned q)
    (hu : c.UniqueIds) (hids : (rs.map (·.id)).Nodup) (hmem : ∀ r ∈ rs, r ∈ c.registry)
    (hr : r ∈ rs) (hf : r.inFlight = false) : r ∉ (rs.foldl f c).registry := by
  intro hrc
  have htouched := foldl_touched (P := (· ∈ c.registry))
    (G := fun q => ∃ p ∈ c.registry, p.Replanned q) same others
    (fun c' _ p hp q hq => (step c' p q hq).imp_right fun h => ⟨p, hp, h⟩) hids hmem hmem r hrc
  rcases htouched with ⟨-, hno⟩ | ⟨p, hp, hplan⟩
  · exact hno hr
  · obtain rfl : p = r := hu.eq hp (hmem r hr) hplan.1.symm
    exact replanned_ne (c := c) (Or.inr hplan) rfl hf rfl

theorem suspendWhere_gone (h : c.Tidy) {applies : Registration → Bool} (hr : r ∈ c.registry)
    (ha : applies r = true) (hf : r.inFlight = false) :
    r ∉ (c.suspendWhere applies).registry :=
  foldl_gone (fun _ _ => rfl) (fun _ _ _ => mem_suspend_of_ne) (fun _ _ _ => suspend_replans)
    h.uniqueIds (h.filter_ids _) (fun _ hq => (List.mem_filter.mp hq).1)
    (List.mem_filter.mpr ⟨hr, ha⟩) hf

theorem resumeWhere_gone (h : c.Tidy) {applies : Registration → Bool} {jitter : Bool}
    (hr : r ∈ c.registry) (ha : applies r = true) (hs : r.state = .paused)
    (hp : r.isPaused c.gates = false) (hf : r.inFlight = false) :
    r ∉ (c.resumeWhere applies jitter).registry := by
  refine foldl_gone (f := resumeOne jitter) (fun _ _ => resumeOne_setting)
    (fun _ _ _ => mem_resumeOne_of_ne) (fun _ _ _ => resumeOne_replans) h.uniqueIds
    (h.filter_ids _) (fun _ hq => (List.mem_filter.mp hq).1) (List.mem_filter.mpr ⟨hr, ?_⟩) hf
  simp [ha, hs, hp]

theorem refresh_gone (h : c.Tidy) (hr : r ∈ c.registry) (hd : c.disposed = false)
    (hp : r.isPaused c.gates = false) (hf : r.inFlight = false) : r ∉ c.refresh.1.registry := by
  unfold refresh
  rw [if_neg (by simp [hd])]
  refine foldl_gone (f := fun c r => c.schedule r .zero) (fun _ _ => schedule_setting)
    (fun _ _ _ => mem_schedule_of_ne) (fun _ _ _ => schedule_replans) h.uniqueIds
    (h.filter_ids _) (fun _ hq => (List.mem_filter.mp hq).1) (List.mem_filter.mpr ⟨hr, ?_⟩) hf
  simp [hp, hf]

theorem pause_gone (h : c.Tidy) (hr : r ∈ c.registry) (hf : r.inFlight = false) :
    r ∉ (c.pause r.key).registry := by
  unfold pause
  rw [find?_of_mem h.toOrderly hr]
  exact fun hmem => replanned_ne (suspend_replans hmem) rfl hf rfl

theorem resume_gone (h : c.Tidy) {jitter : Bool} (hr : r ∈ c.registry)
    (hg : r.gateClosed c.gates = false) (hp : r.explicitlyPaused = true ∨ r.state = .paused)
    (hf : r.inFlight = false) : r ∉ (c.resume r.key jitter).registry := by
  unfold resume
  rw [find?_of_mem h.toOrderly hr]
  have hneeded : (!r.explicitlyPaused && r.state != .paused) = false := by
    rcases hp with hp | hp <;> simp [hp]
  simp only [hg, hneeded, Bool.false_eq_true, if_false]
  exact fun hmem => replanned_ne (resumeOne_replans hmem) rfl hf rfl

theorem register_gone (h : c.Tidy) {o : PollOptions} (hr : r ∈ c.registry)
    (hf : o.fault? = none) (hkey : o.key = r.key) : r ∉ (c.register o).1.registry := by
  intro hmem
  have hd : c.disposed = false := h.undisposed hr
  obtain ⟨hbad, -⟩ | ⟨-, -, e⟩ := register_cases c o
  · simp [hf, hd] at hbad
  · rw [e] at hmem
    obtain ⟨-, -, hrear⟩ := register_spec (o := o) h hd
    obtain ⟨p, hp, ha⟩ := hrear.origin hmem
    have hpkey : p.key = r.key := Registration.eq_of_account (·.key) (fun _ => rfl) ha
    rcases List.mem_append.mp hp with hp | hp
    · exact (mem_vacate h hp).2 (hpkey.trans hkey.symm)
    · have hid : p.id = r.id := Registration.id_of_account ha
      rw [List.mem_singleton.mp hp] at hid
      have hfresh : r.id < (c.vacate o.key).nextId := vacate_nextId c o.key ▸ h.fresh r hr
      exact absurd hid (Nat.ne_of_gt hfresh)

end Coordinator

namespace System

open Coordinator

variable {s s' : System} {r : Registration} {t : Timer} {e : Event} {n : Nat}

/-! ### Timers through an event -/

/-- Where the timers come from that an event leaves armed or waiting. -/
structure TimersFrom (s s' : System) : Prop where
  armed : s.coordinator.armed ≤ s'.coordinator.armed
  timers : ∀ t ∈ s'.coordinator.timers, t ∈ s.coordinator.timers ∨
    s.coordinator.armed ≤ t.number ∧ s.now ≤ t.deadline
  woken : ∀ t ∈ s'.woken, t ∈ s.woken ∨ t ∈ s.coordinator.timers

theorem timersFrom_advances {c' : Coordinator} {runs : List Run}
    (h : Advances s.coordinator c') : TimersFrom s { s with coordinator := c', runs } :=
  ⟨h.armed, h.timers, fun _ ht => Or.inl ht⟩

/-- Only an arming adds to the timers, with a number that none had and a deadline to come. -/
theorem Outcome.timersFrom (ho : Outcome s e s') (h : s.Sound) : TimersFrom s s' := by
  have hless {c' : Coordinator} {woken : List Timer} {runs : List Run}
      (ha : c'.armed = s.coordinator.armed) (ht : ∀ t ∈ c'.timers, t ∈ s.coordinator.timers)
      (hw : ∀ t ∈ woken, t ∈ s.woken) :
      TimersFrom s { s with coordinator := c', woken, runs } :=
    ⟨Nat.le_of_eq ha.symm, fun t ht' => Or.inl (ht t ht'), fun t ht' => Or.inl (hw t ht')⟩
  cases ho with
  | nothing => exact timersFrom_advances (.refl _)
  | moves hm => exact timersFrom_advances (hm.spec h.tidy).2.1
  | register _ _ hd => exact timersFrom_advances (register_spec h.tidy hd).2.1
  | cleanup => exact timersFrom_advances (advances_remove _ _)
  | dispose => exact timersFrom_advances h.tidy.dispose.2
  | release => exact ⟨Nat.le_refl _, by simp [System.release], fun _ ht => Or.inl ht⟩
  | elapse d => exact ⟨Nat.le_refl _, fun _ ht => Or.inl ht, fun _ ht => Or.inl ht⟩
  | wake ht hdue =>
      refine ⟨Nat.le_refl _, fun _ ht => Or.inl ht, fun u hu => ?_⟩
      rcases List.mem_append.mp hu with hu | hu
      · exact Or.inl hu
      · exact Or.inr (List.mem_singleton.mp hu ▸ ht)
  | late => exact hless rfl (fun _ ht => ht) fun _ ht => (List.mem_filter.mp ht).1
  | skip =>
      exact hless rfl (fun _ ht => (mem_disarm.mp ht).1) fun _ ht => (List.mem_filter.mp ht).1
  | begin =>
      exact hless rfl (fun _ ht => (mem_disarm.mp ht).1) fun _ ht => (List.mem_filter.mp ht).1
  | unnoticed => exact timersFrom_advances (.refl _)
  | settle hrun hr hw =>
      exact timersFrom_advances (settle_keeps _ _ h.tidy h.books hr hrun hw).advances

/-- An event either has armed a timer or left it and its registration as they were. -/
theorem Outcome.kept (ho : Outcome s e s') (h : s.Sound) (ht : t ∈ s'.coordinator.timers)
    (hr : r ∈ s'.coordinator.registry) (hid : r.id = t.poll) :
    s.coordinator.armed ≤ t.number ∨
      (t ∈ s.coordinator.timers ∧ r ∈ s.coordinator.registry) := by
  have h' := (ho.sound h).tidy
  -- Whoever has just let go of its timer is not the one that has this timer.
  have hturn {p q : Registration} (hnone : q.timer = none)
      (ht : t ∈ ((s.coordinator.disarm p).put q).timers)
      (hr : r ∈ ((s.coordinator.disarm p).put q).registry)
      (h' : ((s.coordinator.disarm p).put q).Tidy) :
      t ∈ s.coordinator.timers ∧ r ∈ s.coordinator.registry := by
    refine ⟨(mem_disarm.mp ht).1, ?_⟩
    have hrt := (h'.remembered ht hr hid).1
    rcases mem_put.mp hr with ⟨hr, -⟩ | ⟨rfl, -⟩
    · exact hr
    · exact absurd (hnone.symm.trans hrt) (by simp)
  cases ho with
  | nothing => exact Or.inr ⟨ht, hr⟩
  | moves hm => exact (hm.spec h.tidy).2.1.kept h.tidy h' ht hr hid
  | register _ _ hd => exact (register_spec h.tidy hd).2.1.kept h.tidy h' ht hr hid
  | cleanup => exact (advances_remove _ _).kept h.tidy h' ht hr hid
  | dispose => exact h.tidy.dispose.2.kept h.tidy h' ht hr hid
  | release => exact absurd ht (by simp [System.release])
  | elapse d => exact Or.inr ⟨ht, hr⟩
  | wake => exact Or.inr ⟨ht, hr⟩
  | late => exact Or.inr ⟨ht, hr⟩
  | skip => exact Or.inr (hturn rfl ht hr h')
  | begin => exact Or.inr (hturn rfl ht hr h')
  | unnoticed => exact Or.inr ⟨ht, hr⟩
  | settle hrun hr' hw =>
      exact (settle_keeps _ _ h.tidy h.books hr' hrun hw).advances.kept h.tidy h' ht hr hid

/-! ### Events that are about a registration -/

/--
An event is about a registration if it pauses or suspends it, asks for a run of it, replaces
it, or removes it.
-/
def Disturbs (s : System) (r : Registration) : Event → Prop
  | .register o => o.fault? = none ∧ o.key = r.key
  | .cleanup handle => handle.id = r.id
  | .pause key => key = r.key
  | .resume key _ => key = r.key ∧ r.gateClosed s.coordinator.gates = false ∧
      (r.explicitlyPaused = true ∨ r.state = .paused)
  | .pauseHealthAware => r.options.pauseWhenBackendDown = true
  | .resumeHealthAware _ => r.options.pauseWhenBackendDown = true ∧ r.state = .paused ∧
      r.isPaused { s.coordinator.gates with backendAvailable := true } = false
  | .pauseAuthenticated => r.options.requiresAuth = true
  | .resumeAuthenticated => r.options.requiresAuth = true ∧ r.state = .paused ∧
      r.isPaused { s.coordinator.gates with authGranted := true } = false
  | .refresh => r.isPaused s.coordinator.gates = false
  | .finish id _ => r.awaitedRun = some id
  | .dispose | .release => True
  | .listen | .forceGates _ | .elapse _ | .wake _ | .fire _ => False

/-- An event that is about an idle registration leaves nothing of it as it was. -/
theorem Sound.disturbed (h : s.Sound) (hr : r ∈ s.coordinator.registry) (hf : r.inFlight = false)
    (hd : s.Disturbs r e) : r ∉ (s.step e).coordinator.registry := by
  have hcall {f : Coordinator → Coordinator} (hf : r ∉ (f s.coordinator).registry) :
      r ∉ (s.call f).coordinator.registry := by
    rw [System.call, if_pos (h.alive hr)]
    exact hf
  have ht := h.tidy
  cases e with
  | register o => exact hcall (register_gone ht hr hd.1 hd.2)
  | cleanup handle =>
      refine hcall ?_
      obtain ⟨hno, -⟩ | ⟨p, -, hid, e⟩ := cleanup_cases s.coordinator handle
      · exact absurd hd.symm (hno r hr)
      · rw [e]
        exact fun hmem => (mem_remove.mp hmem).2 (hd.symm.trans hid.symm)
  | pause key => exact hcall (hd ▸ pause_gone ht hr hf)
  | resume key jitter => exact hcall (hd.1 ▸ resume_gone ht hr hd.2.1 hd.2.2 hf)
  | pauseHealthAware => exact hcall (suspendWhere_gone (ht.withGates _) hr hd hf)
  | resumeHealthAware jitter =>
      exact hcall (resumeWhere_gone (ht.withGates _) hr hd.1 hd.2.1 hd.2.2 hf)
  | pauseAuthenticated => exact hcall (suspendWhere_gone (ht.withGates _) hr hd hf)
  | resumeAuthenticated =>
      exact hcall (resumeWhere_gone (ht.withGates _) hr hd.1 hd.2.1 hd.2.2 hf)
  | refresh => exact hcall (refresh_gone ht hr (h.undisposed hr) hd hf)
  | finish id failed =>
      exact absurd (Registration.awaitedRun_eq_some.mp hd).1 (by simp [hf])
  | dispose =>
      refine hcall ?_
      obtain ⟨hd', -⟩ | ⟨-, -, hnil, -⟩ := dispose_cases ht
      · exact absurd ((h.undisposed hr).symm.trans hd') (by simp)
      · rw [hnil]
        simp
  | release => simp [System.step, System.release]
  | listen | forceGates | elapse | wake | fire => exact hd.elim

/-! ### From the arming of a timer to its turn -/

/-- A registration is there with its timer, and an event that comes is not about it. -/
def Spares (r : Registration) (t : Timer) (s : System) (e : Event) : Prop :=
  r ∈ s.coordinator.registry ∧ s.TimedBy r t ∧ ¬ s.Disturbs r e

/--
One event of a history has armed a timer for a registration, and none since then was about
that registration.
-/
def ArmedIn (start : System) (events : List Event) (r : Registration) (t : Timer) : Prop :=
  ∃ before e after, events = before ++ e :: after ∧
    (start.run before).coordinator.armed ≤ t.number ∧
    ((start.run before).step e).TimedBy r t ∧
    Lawful (Spares r t) ((start.run before).step e) after

/-- Whatever timer is armed was armed by some event, and its registration has been left alone. -/
theorem armedIn_of_mem {start : System} (hs : start.Sound) (hnew : start.coordinator.timers = [])
    (events : List Event) : ∀ {t : Timer} {r : Registration},
      t ∈ (start.run events).coordinator.timers →
      r ∈ (start.run events).coordinator.registry → r.id = t.poll → ArmedIn start events r t := by
  -- The induction is on the last event: it arms the timer, or the ones before it did.
  induction events using List.reverseRecOn with
  | nil =>
      intro t r ht
      exact absurd (hnew ▸ ht) (by simp)
  | append_singleton events e ih =>
      intro t r ht hr hid
      rw [run_append] at ht hr
      have h := hs.run events
      have h' : ((start.run events).step e).Sound := h.step e
      rcases (h.outcome e).kept h ht hr hid with hnumber | ⟨ht₀, hr₀⟩
      · exact ⟨events, e, [], rfl, hnumber, h'.timedBy ht hr hid, trivial⟩
      · obtain ⟨before, e₀, after, rfl, hnumber, htimed, hlaw⟩ := ih ht₀ hr₀ hid
        refine ⟨before, e₀, after ++ [e], by simp, hnumber, htimed, ?_⟩
        rw [run_append, run_cons] at h ht₀ hr₀ hr
        refine lawful_append.mpr ⟨hlaw, ⟨hr₀, h.timedBy ht₀ hr₀ hid, fun hd => ?_⟩, trivial⟩
        have hidle : r.inFlight = false := by
          have hsome := (h.tidy.remembered ht₀ hr₀ hid).1
          exact h.tidy.idle r hr₀ (by simp [hsome])
        exact h.disturbed hr₀ hidle hd hr

/-! ### The time of a turn -/

/-- The clock is a virtual one: it does not pass a deadline while the timer is armed. -/
def Punctual (s : System) : Event → Prop
  | .elapse d => ∀ t ∈ s.coordinator.timers, (s.now.later d).millisUp ≤ t.deadline.millisUp
  | _ => True

instance (s : System) : ∀ e, Decidable (s.Punctual e)
  | .elapse d => inferInstanceAs (Decidable (∀ t ∈ s.coordinator.timers,
      (s.now.later d).millisUp ≤ t.deadline.millisUp))
  | .register _ | .cleanup _ | .pause _ | .resume _ _ | .pauseHealthAware | .resumeHealthAware _
  | .pauseAuthenticated | .resumeAuthenticated | .refresh | .listen | .forceGates _ | .dispose
  | .release | .wake _ | .fire _ | .finish _ _ => isTrue trivial

theorem Outcome.now_eq (ho : Outcome s e s') (h : s.Sound) (he : ∀ d, e ≠ .elapse d) :
    s'.now = s.now := by
  obtain ⟨d, rfl, -⟩ | hclock := ho.clock_cases h
  · exact absurd rfl (he d)
  · exact congrArg Clock.now hclock

/-- No armed timer is late. -/
def InTime (s : System) : Prop := ∀ t ∈ s.coordinator.timers, s.now.millisUp ≤ t.deadline.millisUp

theorem Sound.inTime_step (h : s.Sound) (hin : s.InTime) (hp : s.Punctual e) :
    (s.step e).InTime := by
  intro t ht
  by_cases he : ∃ d, e = .elapse d
  · obtain ⟨d, rfl⟩ := he
    exact hp t ht
  · rw [(h.outcome e).now_eq h fun d hd => he ⟨d, hd⟩]
    rcases ((h.outcome e).timersFrom h).timers t ht with ht | ⟨-, hle⟩
    · exact hin t ht
    · exact Instant.millisUp_mono hle

/-! ### One start for a timer -/

/-- A timer that is neither armed nor waiting for its turn, and never will be again. -/
structure Spent (s : System) (n : Nat) : Prop where
  number : n < s.coordinator.armed
  timers : ∀ t ∈ s.coordinator.timers, t.number ≠ n
  woken : ∀ t ∈ s.woken, t.number ≠ n

theorem Spent.step (hn : s.Spent n) (h : TimersFrom s s') : s'.Spent n where
  number := Nat.lt_of_lt_of_le hn.number h.armed
  timers := by
    intro t ht
    rcases h.timers t ht with ht | ⟨hnew, -⟩
    · exact hn.timers t ht
    · have := hn.number
      omega
  woken := by
    intro t ht
    rcases h.woken t ht with ht | ht
    · exact hn.woken t ht
    · exact hn.timers t ht

/-- The number of the timer that an event makes start a run. -/
def started (s : System) : Event → Option Nat
  | .fire n => (s.fire n).2.map fun _ => n
  | _ => none

/-- The numbers of the timers that start runs in a history. -/
def starts : System → List Event → List Nat
  | _, [] => []
  | s, e :: rest => (s.started e).toList ++ (s.step e).starts rest

/-- What has to hold for the turn of a timer to start a run. -/
structure Rightful (s : System) (n : Nat) (run : Run) (r : Registration) (t : Timer) : Prop where
  held : s.alive = true
  undisposed : s.coordinator.disposed = false
  registered : r ∈ s.coordinator.registry
  id : r.id = run.id
  key : r.key = run.key
  unpaused : r.explicitlyPaused = false
  ungated : r.gateClosed s.coordinator.gates = false
  idle : r.inFlight = false
  alone : ∀ other ∈ s.runs, other.id ≠ r.id
  number : t.number = n
  due : t.deadline ≤ s.now
  timed : s.TimedBy r t

theorem Sound.rightful (h : s.Sound) {run : Run} (hstart : (s.fire n).2 = some run) :
    ∃ r t, s.Rightful n run r t := by
  obtain e | e | ⟨halive, hd, t, ht, hn, hdue, r, hr, hid, hrt, ⟨-, e⟩ | ⟨hp, e⟩⟩ :=
    h.fire_cases n <;> rw [e] at hstart
  · exact absurd hstart (by simp)
  · exact absurd hstart (by simp)
  · exact absurd hstart (by simp)
  · obtain rfl : (⟨r.id, r.key⟩ : Run) = run := Option.some.inj hstart
    have hidle : r.inFlight = false := h.tidy.idle r hr (by simp [hrt])
    have hp' : r.explicitlyPaused = false ∧ r.gateClosed s.coordinator.gates = false := by
      simpa [Registration.isPaused] using hp
    exact ⟨r, t, halive, hd, hr, rfl, rfl, hp'.1, hp'.2, hidle, h.books.alone hr hidle, hn, hdue,
      h.timedBy ht hr hid⟩

/-- A timer that starts a run is spent by that. -/
theorem Sound.spent_of_started (h : s.Sound) (hst : s.started e = some n) :
    (s.step e).Spent n := by
  obtain ⟨m, rfl⟩ : ∃ m, e = .fire m := by
    cases e with
    | fire m => exact ⟨m, rfl⟩
    | _ => exact absurd hst (by simp [started])
  obtain ⟨run, hrun, rfl⟩ := Option.map_eq_some_iff.mp hst
  obtain ⟨r, t, hright⟩ := h.rightful hrun
  have ht := hright.timed.mem
  have hid : r.id = t.poll := hright.timed.poll_eq.symm
  have hp : r.isPaused s.coordinator.gates = false := by
    simp [Registration.isPaused, hright.unpaused, hright.ungated]
  have hfire := h.fire_of_due ht hright.due hright.registered hid hp
  rw [hright.number] at hfire
  show (s.fire m).1.Spent m
  rw [hfire]
  refine ⟨hright.number ▸ h.tidy.numbered t ht, fun u hu hum => ?_, fun u hu => ?_⟩
  · have hne := (mem_disarm.mp hu).2
    rw [hright.timed.remembered, hright.number, hum] at hne
    exact hne rfl
  · simpa using (List.mem_filter.mp hu).2

theorem Sound.not_started (h : s.Sound) (hn : s.Spent n) (e : Event) : s.started e ≠ some n := by
  intro hst
  cases e with
  | fire m =>
      obtain ⟨run, hrun, rfl⟩ := Option.map_eq_some_iff.mp hst
      obtain ⟨r, t, hright⟩ := h.rightful hrun
      exact hn.timers t hright.timed.mem hright.number
  | _ => exact absurd hst (by simp [started])

/-- No timer starts two runs. -/
theorem Sound.starts_nodup (h : s.Sound) (events : List Event) :
    (s.starts events).Nodup ∧ ∀ n, s.Spent n → n ∉ s.starts events := by
  induction events generalizing s with
  | nil => exact ⟨List.nodup_nil, by simp [starts]⟩
  | cons e rest ih =>
      obtain ⟨hnodup, hspent⟩ := ih (h.step e)
      have hlater {n : Nat} (hn : s.Spent n) : n ∉ (s.step e).starts rest :=
        hspent n (hn.step ((h.outcome e).timersFrom h))
      cases hst : s.started e with
      | none =>
          rw [starts, hst]
          exact ⟨hnodup, fun n hn => hlater hn⟩
      | some m =>
          rw [starts, hst]
          refine ⟨List.nodup_cons.mpr ⟨hspent m (h.spent_of_started hst), hnodup⟩, fun n hn => ?_⟩
          intro hmem
          rcases List.mem_cons.mp hmem with rfl | hmem
          · exact h.not_started hn e hst
          · exact hlater hn hmem

/-- A run begins by the turn of a timer and by nothing else. -/
theorem Outcome.began (ho : Outcome s e s') (h : s.Sound) {run : Run} (hrun : run ∈ s'.runs)
    (hnew : run ∉ s.runs) : ∃ n, e = .fire n ∧ (s.fire n).2 = some run := by
  cases ho with
  | begin ht hdue hr hid hrt hp =>
      refine ⟨_, rfl, ?_⟩
      rcases List.mem_append.mp hrun with hrun | hrun
      · exact absurd hrun hnew
      · rw [h.fire_of_due ht hdue hr hid hp, List.mem_singleton.mp hrun]
  | unnoticed | settle => exact absurd (List.mem_of_mem_eraseP hrun) hnew
  | _ => exact absurd hrun hnew

/-! ### Every history -/

/--
**Every run starts rightfully.**  In every history no timer starts two runs, and a run begins by
the turn of a timer only.  The timer is then the one of a registration that may run and does
not; some event has armed it, and none since was about the registration; and on a virtual clock
it is the time of its deadline.
-/
theorem starts_rightful (config : CoordinatorConfig) (clock : Clock) (draws : Draws)
    (events : List Event) :
    let start := initial config clock draws
    let s := start.run events
    (start.starts events).Nodup ∧
    (∀ e run, run ∈ (s.step e).runs → run ∉ s.runs → ∃ n, e = .fire n ∧ (s.fire n).2 = some run) ∧
    ∀ n run, (s.fire n).2 = some run → ∃ r t, s.Rightful n run r t ∧ start.ArmedIn events r t ∧
      (Lawful Punctual start events → s.now.millisUp = t.deadline.millisUp) := by
  intro start s
  have hfirst : start.Sound := sound_initial config clock draws
  have h : s.Sound := hfirst.run events
  refine ⟨(hfirst.starts_nodup events).1, fun e run => (h.outcome e).began h, ?_⟩
  intro n run hstart
  obtain ⟨r, t, hright⟩ := h.rightful hstart
  have ht := hright.timed.mem
  refine ⟨r, t, hright, ?_, fun hlaw => ?_⟩
  · exact armedIn_of_mem hfirst rfl events ht hright.registered hright.timed.poll_eq.symm
  · have hin : s.Sound ∧ s.InTime := hlaw.run (I := fun s => s.Sound ∧ s.InTime)
      (fun s e ⟨h, hin⟩ hp => ⟨h.step e, h.inTime_step hin hp⟩)
      ⟨hfirst, fun t ht => absurd ht (by simp [start, initial])⟩
    exact Nat.le_antisymm (hin.2 t ht) (Instant.millisUp_mono hright.due)

/-- A timer goes off and is cancelled before its turn, and the gates are forced in between. -/
def interrupted : List Event :=
  [.register { key := "feed", interval := .ofSeconds 60 },
    .register { key := "inbox", interval := .ofSeconds 5, requiresAuth := true },
    .fire 0, .elapse (.ofSeconds 1), .wake 1, .pause "inbox", .resume "inbox" false, .fire 1,
    .forceGates ⟨false, true⟩, .finish 0 false, .forceGates ⟨true, true⟩]

theorem starts_rightful_interrupted :
    let start := initial {} default ⟨[], []⟩
    let s := start.run interrupted
    (s.fire 2).2 = some ⟨1, "inbox"⟩ ∧ Lawful Punctual start interrupted ∧
    ∃ r t, s.Rightful 2 ⟨1, "inbox"⟩ r t ∧ start.ArmedIn interrupted r t ∧
      s.now.millisUp = t.deadline.millisUp := by
  intro start s
  have hstart : (s.fire 2).2 = some ⟨1, "inbox"⟩ := by decide +kernel
  have hlaw : Lawful Punctual start interrupted := by decide +kernel
  obtain ⟨-, -, hall⟩ := starts_rightful {} default ⟨[], []⟩ interrupted
  obtain ⟨r, t, hright, harmed, htime⟩ := hall 2 _ hstart
  exact ⟨hstart, hlaw, r, t, hright, harmed, htime hlaw⟩

end System

end FeedPoller
