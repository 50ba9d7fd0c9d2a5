/-
What is planned agrees with what is paused.

Whether a registration is paused is asked of the gates each time, while its state, its timer
and a delay kept for later are stored.  `Coherent` says that they agree: a paused one plans
nothing, one with a run going on waits for the end of it, and any other has a timer.  Every
operation restores the agreement for the registrations that it touches, and none
touches a gate without going through the registrations that the gate applies to.

Two things are asked of a history.  Nobody forces the gates, which touches them without
going through anything.  And the clock can name the deadlines that are asked for, since a
request for one that it cannot name leaves a registration without a timer.
-/
import FeedPoller.Proofs.Poll.History

namespace FeedPoller

/-- What is planned for a registration agrees with its pauses, the gates and its runs. -/
structure Registration.Coherent (r : Registration) (g : Gates) : Prop where
  state : r.state = if r.isPaused g then .paused else if r.inFlight then .running else .scheduled
  timer : r.timer.isSome = (!r.isPaused g && !r.inFlight)
  pending : r.isPaused g = true → r.pendingDelay = none

namespace Registration

variable {r : Registration} {g g' : Gates} {d : Duration}

theorem Coherent.state_paused_iff (h : r.Coherent g) :
    r.state = .paused ↔ r.isPaused g = true := by
  rw [h.state]
  cases r.isPaused g <;> cases r.inFlight <;> simp

/-- The gates matter only as far as they pause the registration. -/
theorem Coherent.of_isPaused (h : r.Coherent g) (hp : r.isPaused g' = r.isPaused g) :
    r.Coherent g' where
  state := by rw [hp]; exact h.state
  timer := by rw [hp]; exact h.timer
  pending := by rw [hp]; exact h.pending

/-- Whoever is paused was paused already when more gates were closed. -/
theorem isPaused_of_open (r : Registration)
    (ha : g'.authGranted = false → g.authGranted = false)
    (hb : g'.backendAvailable = false → g.backendAvailable = false)
    (hp : r.isPaused g' = true) : r.isPaused g = true := by
  simp only [isPaused, gateClosed, Bool.or_eq_true, Bool.and_eq_true, Bool.not_eq_true'] at hp ⊢
  rcases hp with hp | ⟨hr, hg⟩ | ⟨hr, hg⟩
  · exact Or.inl hp
  · exact Or.inr (Or.inl ⟨hr, ha hg⟩)
  · exact Or.inr (Or.inr ⟨hr, hb hg⟩)

theorem coherent_suspended (hp : r.isPaused g = true) : r.suspended.Coherent g := by
  have hp' : r.suspended.isPaused g = true := hp
  refine ⟨?_, ?_, fun _ => rfl⟩ <;> rw [hp'] <;> rfl

theorem coherent_parked (hp : r.isPaused g = false) (hf : r.inFlight = true)
    (ht : r.timer = none) : (r.parked d).Coherent g := by
  have hp' : (r.parked d).isPaused g = false := hp
  have hf' : (r.parked d).inFlight = true := hf
  have ht' : (r.parked d).timer = none := ht
  refine ⟨?_, ?_, fun h => absurd (hp'.symm.trans h) (by simp)⟩
  · rw [hp', hf']; rfl
  · rw [hp', hf', ht']; rfl

theorem coherent_armed (hp : r.isPaused g = false) (hf : r.inFlight = false) (n : Nat) :
    { r.scheduled with timer := some n }.Coherent g := by
  have hp' : { r.scheduled with timer := some n }.isPaused g = false := hp
  have hf' : { r.scheduled with timer := some n }.inFlight = false := hf
  refine ⟨?_, ?_, fun h => absurd (hp'.symm.trans h) (by simp)⟩ <;> rw [hp', hf'] <;> rfl

theorem coherent_begun (hp : r.isPaused g = false) : r.begun.Coherent g := by
  have hp' : r.begun.isPaused g = false := hp
  refine ⟨?_, ?_, fun h => absurd (hp'.symm.trans h) (by simp)⟩ <;> rw [hp'] <;> rfl

/-- Once its run has ended a registration that is paused plans nothing. -/
theorem coherent_rested (hp : r.isPaused g = true) (ht : r.timer = none) :
    { r with state := .paused, pendingDelay := none }.Coherent g := by
  have hp' : { r with state := .paused, pendingDelay := none }.isPaused g = true := hp
  refine ⟨?_, ?_, fun _ => rfl⟩
  · rw [hp']; rfl
  · rw [hp']; exact congrArg Option.isSome ht

end Registration

namespace Coordinator

variable {c c' : Coordinator} {r q : Registration} {g : Gates} {d : Duration}

/-- Every registration's plan agrees with the gates. -/
def Coherent (c : Coordinator) : Prop := ∀ r ∈ c.registry, r.Coherent c.gates

theorem Coherent.subset (h : c.Coherent) (hr : ∀ r ∈ c'.registry, r ∈ c.registry)
    (hg : c'.gates = c.gates) : c'.Coherent :=
  fun r hr' => hg ▸ h r (hr r hr')

/-- Every deadline that could be asked for now can be named. -/
structure InReach (c : Coordinator) : Prop where
  now : c.clock.now.nanos < Instant.horizon
  jitter : ∀ ms < c.config.jitterMax.millis64, (c.clock.now.after? (.ofMillis ms)).isSome
  stagger : ∀ order ≤ c.registry.length, (c.clock.now.after? (c.staggerDelay order)).isSome
  next : ∀ r ∈ c.registry, (c.clock.now.after? (r.pendingDelay.getD r.options.interval)).isSome

instance (c : Coordinator) : Decidable c.InReach :=
  decidable_of_iff
    (c.clock.now.nanos < Instant.horizon ∧
      (∀ ms < c.config.jitterMax.millis64, (c.clock.now.after? (.ofMillis ms)).isSome) ∧
      (∀ order ≤ c.registry.length, (c.clock.now.after? (c.staggerDelay order)).isSome) ∧
      ∀ r ∈ c.registry, (c.clock.now.after? (r.pendingDelay.getD r.options.interval)).isSome)
    ⟨fun ⟨hn, hj, hs, hx⟩ => ⟨hn, hj, hs, hx⟩, fun h => ⟨h.now, h.jitter, h.stagger, h.next⟩⟩

/-- Every deadline that a registered poll could ask for now can be named. -/
structure InSight (c : Coordinator) : Prop where
  now : c.clock.now.nanos < Instant.horizon
  jitter : ∀ ms < c.config.jitterMax.millis64, (c.clock.now.after? (.ofMillis ms)).isSome
  next : ∀ r ∈ c.registry, (c.clock.now.after? (r.pendingDelay.getD r.options.interval)).isSome

theorem InReach.inSight (h : c.InReach) : c.InSight := ⟨h.now, h.jitter, h.next⟩

theorem InSight.zero (h : c.InSight) : (c.clock.now.after? .zero).isSome := by
  rw [Instant.after_zero h.now]
  rfl

/-- A drawn delay is below its bound. -/
theorem InSight.drawn (h : c.InSight) (hf : c'.config = c.config) (jitter : Bool) :
    (c.clock.now.after? (c'.resumeDelay jitter).1).isSome := by
  obtain hzero | ⟨ms, hlt, hms⟩ := c'.resumeDelay_resumes jitter
  · rw [hzero]
    exact h.zero
  · rw [hms]
    exact h.jitter ms (hf ▸ hlt)

/-! ### One registration -/

/-- A registration that may run has a coherent plan once a run of it is asked for. -/
theorem coherent_schedule (hd : (c.clock.now.after? d).isSome) (hp : r.isPaused g = false)
    (ht : r.inFlight = true → r.timer = none) (hq : q ∈ (c.schedule r d).registry) :
    (q ∈ c.registry ∧ q.id ≠ r.id) ∨ q.Coherent g := by
  obtain ⟨hf, e⟩ | ⟨hf, deadline, -, e⟩ | ⟨-, hnone, -⟩ := schedule_cases c r d
  · rw [e] at hq
    rcases mem_put.mp hq with hq | ⟨rfl, -⟩
    · exact Or.inl hq
    · exact Or.inr (Registration.coherent_parked hp hf (ht hf))
  · rw [e] at hq
    rcases mem_put.mp hq with hq | ⟨rfl, -⟩
    · exact Or.inl hq
    · exact Or.inr (Registration.coherent_armed hp hf _)
  · rw [hnone] at hd
    exact absurd hd (by simp)

theorem coherent_suspend (hp : r.isPaused g = true) (hq : q ∈ (c.suspend r).registry) :
    (q ∈ c.registry ∧ q.id ≠ r.id) ∨ q.Coherent g := by
  rcases mem_put.mp hq with hq | ⟨rfl, -⟩
  · exact Or.inl hq
  · exact Or.inr (Registration.coherent_suspended hp)

theorem coherent_resumeOne (h : c.InSight) (hc : c'.clock = c.clock) (hf : c'.config = c.config)
    {jitter : Bool} (hp : r.isPaused g = false) (ht : r.inFlight = true → r.timer = none)
    (hq : q ∈ (resumeOne jitter c' r).registry) :
    (q ∈ c'.registry ∧ q.id ≠ r.id) ∨ q.Coherent g := by
  obtain ⟨draws, e⟩ := c'.resumeDelay_draws jitter
  have hd := h.drawn hf jitter
  have hclock : (c'.resumeDelay jitter).2.clock = c.clock := by rw [e]; exact hc
  rw [← hclock] at hd
  have := coherent_schedule hd hp ht hq
  rwa [e] at this

/-! ### Many registrations -/

/--
The plans are coherent in the end if each step makes one so, and those that no step is about
were coherent before.
-/
theorem foldl_coherent {f : Coordinator → Registration → Coordinator} {P : Registration → Prop}
    {rs : List Registration} (same : ∀ c r, (f c r).setting = c.setting)
    (others : ∀ c r q, q ∈ c.registry → q.id ≠ r.id → q ∈ (f c r).registry)
    (step : ∀ c', c'.setting = c.setting → ∀ r, P r → ∀ q ∈ (f c' r).registry,
      (q ∈ c'.registry ∧ q.id ≠ r.id) ∨ q.Coherent c.gates)
    (hids : (rs.map (·.id)).Nodup) (hmem : ∀ r ∈ rs, r ∈ c.registry) (hP : ∀ r ∈ rs, P r)
    (hrest : ∀ r ∈ c.registry, r ∉ rs → r.Coherent c.gates) : (rs.foldl f c).Coherent := by
  have hgates : (rs.foldl f c).gates = c.gates :=
    foldl_eq (·.gates) (fun c r => congrArg Prod.fst (same c r)) rs c
  intro q hq
  rw [hgates]
  rcases foldl_touched same others step hids hmem hP q hq with ⟨hq, hno⟩ | hcoh
  · exact hrest q hq hno
  · exact hcoh

/-- Closing a gate is coherent if those that it applies to are suspended. -/
theorem coherent_suspendWhere (h : c.Tidy) {applies : Registration → Bool}
    (hp : ∀ r ∈ c.registry, applies r = true → r.isPaused c.gates = true)
    (hrest : ∀ r ∈ c.registry, applies r = false → r.Coherent c.gates) :
    (c.suspendWhere applies).Coherent := by
  refine foldl_coherent (P := fun r => r.isPaused c.gates = true) (fun _ _ => rfl)
    (fun _ _ _ => mem_suspend_of_ne) (fun c' _ r hr q hq => coherent_suspend hr hq) (h.filter_ids _)
    (fun r hr => (List.mem_filter.mp hr).1) (fun r hr => ?_) fun r hr hno => ?_
  · exact hp r (List.mem_filter.mp hr).1 (List.mem_filter.mp hr).2
  · refine hrest r hr ?_
    cases ha : applies r with
    | false => rfl
    | true => exact absurd (List.mem_filter.mpr ⟨hr, ha⟩) hno

/-- Opening a gate is coherent if those that it leaves without a pause are asked to run. -/
theorem coherent_resumeWhere (h : c.Tidy) (hsight : c.InSight) {applies : Registration → Bool}
    (jitter : Bool) (hcoh : ∀ r ∈ c.registry, r.Coherent g)
    (hopen : ∀ r : Registration, r.isPaused c.gates = true → r.isPaused g = true)
    (hother : ∀ r, applies r = false → r.isPaused c.gates = r.isPaused g) :
    (c.resumeWhere applies jitter).Coherent := by
  refine foldl_coherent (f := resumeOne jitter)
    (P := fun r => r.isPaused c.gates = false ∧ (r.inFlight = true → r.timer = none))
    (fun _ _ => resumeOne_setting) (fun _ _ _ => mem_resumeOne_of_ne) ?_ (h.filter_ids _)
    (fun r hr => (List.mem_filter.mp hr).1) (fun r hr => ?_) fun r hr hno => ?_
  · intro c' hset r ⟨hp, ht⟩ q hq
    have hrest := congrArg Prod.snd hset
    exact coherent_resumeOne hsight (congrArg Prod.fst hrest) (congrArg Prod.snd hrest) hp ht hq
  · obtain ⟨hr, hel⟩ := List.mem_filter.mp hr
    have hp : r.isPaused c.gates = false := by
      simp only [Bool.and_eq_true] at hel
      simpa using hel.2
    exact ⟨hp, h.timer_none hr⟩
  · -- Whoever is not asked to run was as paused before the gate opened as it is now.
    have hr' := hcoh r hr
    refine hr'.of_isPaused ?_
    cases hg : r.isPaused g with
    | false =>
        cases hc : r.isPaused c.gates with
        | false => rfl
        | true => exact absurd ((hopen r hc).symm.trans hg) (by simp)
    | true =>
        cases hc : r.isPaused c.gates with
        | true => rfl
        | false =>
            cases ha : applies r with
            | false => exact absurd ((hother r ha).symm.trans hc) (by simp [hg])
            | true =>
                refine absurd (List.mem_filter.mpr ⟨hr, ?_⟩) hno
                simp [ha, hr'.state_paused_iff.mpr hg, hc]

/-! ### Every operation -/

/-- Only one registration has been touched, and what became of it is coherent. -/
theorem Coherent.of_touched (h : c.Coherent) (hg : c'.gates = c.gates)
    (hq : ∀ q ∈ c'.registry, (q ∈ c.registry ∧ q.id ≠ r.id) ∨ q.Coherent c.gates) :
    c'.Coherent := by
  intro q hq'
  rw [hg]
  rcases hq q hq' with ⟨hq, -⟩ | hcoh
  · exact h q hq
  · exact hcoh

theorem Coherent.pause (h : c.Coherent) (key : String) : (c.pause key).Coherent := by
  unfold Coordinator.pause
  split
  · exact h
  · exact h.of_touched rfl fun q hq => coherent_suspend rfl hq

theorem Coherent.resume (h : c.Coherent) (ht : c.Tidy) (hsight : c.InSight) (key : String)
    (jitter : Bool) : (c.resume key jitter).Coherent := by
  unfold Coordinator.resume
  split
  · exact h
  · next r hf =>
      cases hg : r.gateClosed c.gates with
      | true => exact h
      | false =>
          split
          · exact absurd ‹_› (by simp)
          · split
            · exact h
            · have hp : { r with explicitlyPaused := false }.isPaused c.gates = false := hg
              have hnone : r.inFlight = true → r.timer = none := ht.timer_none (find?_mem hf).1
              exact h.of_touched resumeOne_gates fun q hq =>
                coherent_resumeOne hsight rfl rfl hp hnone hq

theorem Coherent.pauseHealthAware (h : c.Coherent) (ht : c.Tidy) :
    c.pauseHealthAware.Coherent := by
  refine coherent_suspendWhere (ht.withGates _) (fun r _ ha => ?_) fun r hr ha => ?_
  · simp [Registration.isPaused, Registration.gateClosed, ha]
  · refine (h r hr).of_isPaused ?_
    simp [Registration.isPaused, Registration.gateClosed, ha]

theorem Coherent.pauseAuthenticated (h : c.Coherent) (ht : c.Tidy) :
    c.pauseAuthenticated.Coherent := by
  refine coherent_suspendWhere (ht.withGates _) (fun r _ ha => ?_) fun r hr ha => ?_
  · simp [Registration.isPaused, Registration.gateClosed, ha]
  · refine (h r hr).of_isPaused ?_
    simp [Registration.isPaused, Registration.gateClosed, ha]

theorem InSight.withGates (h : c.InSight) (gates : Gates) : InSight { c with gates } :=
  ⟨h.now, h.jitter, h.next⟩

theorem Coherent.resumeHealthAware (h : c.Coherent) (ht : c.Tidy) (hsight : c.InSight)
    (jitter : Bool) : (c.resumeHealthAware jitter).Coherent := by
  refine coherent_resumeWhere (ht.withGates _) (hsight.withGates _) jitter h
    (fun r => r.isPaused_of_open id (by simp)) fun r ha => ?_
  simp [Registration.isPaused, Registration.gateClosed, ha]

theorem Coherent.resumeAuthenticated (h : c.Coherent) (ht : c.Tidy) (hsight : c.InSight) :
    c.resumeAuthenticated.Coherent := by
  refine coherent_resumeWhere (ht.withGates _) (hsight.withGates _) false h
    (fun r => r.isPaused_of_open (by simp) id) fun r ha => ?_
  simp [Registration.isPaused, Registration.gateClosed, ha]

theorem Coherent.refresh (h : c.Coherent) (ht : c.Tidy) (hsight : c.InSight) :
    c.refresh.1.Coherent := by
  unfold Coordinator.refresh
  split
  · exact h
  · refine foldl_coherent (f := fun c r => c.schedule r .zero)
      (P := fun r => r.isPaused c.gates = false ∧ (r.inFlight = true → r.timer = none))
      (fun _ _ => schedule_setting) (fun _ _ _ => mem_schedule_of_ne) ?_ (ht.filter_ids _)
      (fun r hr => (List.mem_filter.mp hr).1) (fun r hr => ?_) fun r hr _ => h r hr
    · intro c' hset r ⟨hp, hnone⟩ q hq
      have hclock : c'.clock = c.clock := congrArg (·.2.1) hset
      exact coherent_schedule (hclock ▸ hsight.zero) hp hnone hq
    · obtain ⟨hr, hel⟩ := List.mem_filter.mp hr
      simp only [Bool.and_eq_true, Bool.not_eq_true'] at hel
      exact ⟨hel.1, ht.timer_none hr⟩

theorem Coherent.remove (h : c.Coherent) (r : Registration) : (c.remove r).Coherent :=
  h.subset (fun _ hq => (List.mem_filter.mp hq).1) rfl

theorem Coherent.vacate (h : c.Coherent) (key : String) : (c.vacate key).Coherent := by
  obtain ⟨-, e, -⟩ | ⟨r, -, -, e, -⟩ := vacate_cases c key <;> rw [e]
  · exact h
  · exact h.remove r

theorem Coherent.append (h : c.Coherent) (o : PollOptions) (awaited : Option Nat)
    (hd : (c.clock.now.after? (c.staggerDelay c.registry.length)).isSome) :
    (c.append o awaited).1.Coherent := by
  have hold : ∀ q ∈ (c.join (c.newcomer o awaited)).registry, q.id ≠ (c.newcomer o awaited).id →
      q.Coherent c.gates := by
    intro q hq hne
    rcases List.mem_append.mp hq with hq | hq
    · exact h q hq
    · exact absurd (by rw [List.mem_singleton.mp hq]) hne
  obtain ⟨hg, e⟩ | ⟨hg, e⟩ := append_cases c o awaited <;> rw [e]
  · intro q hq
    rcases mem_put.mp hq with ⟨hq, hne⟩ | ⟨rfl, -⟩
    · exact hold q hq hne
    · exact Registration.coherent_rested (r := c.newcomer o awaited) hg rfl
  · intro q hq
    rw [schedule_gates]
    have hp : (c.newcomer o awaited).isPaused c.gates = false := hg
    rcases coherent_schedule (c := c.join _) hd hp (fun _ => rfl) hq with ⟨hq, hne⟩ | hcoh
    · exact hold q hq hne
    · exact hcoh

/-- A new poll starts with a coherent plan if its first deadline can be named. -/
theorem Coherent.register (h : c.Coherent) (o : PollOptions)
    (hd : (c.clock.now.after? (c.staggerDelay (c.vacate o.key).registry.length)).isSome) :
    (c.register o).1.Coherent := by
  obtain ⟨-, e⟩ | ⟨-, -, e⟩ := register_cases c o <;> rw [e]
  · exact h
  · refine (h.vacate o.key).append o _ ?_
    obtain ⟨_, _, e⟩ := vacate_frame c o.key
    rw [e] at hd ⊢
    exact hd

theorem vacate_length_le (c : Coordinator) (key : String) :
    (c.vacate key).registry.length ≤ c.registry.length := by
  obtain ⟨-, e, -⟩ | ⟨r, -, -, e, -⟩ := vacate_cases c key
  · exact Nat.le_of_eq (by rw [e])
  · rw [e]
    exact List.length_filter_le _ _

/-- When a run has ended the next one is planned, unless its registration is paused. -/
theorem Coherent.settle (h : c.Coherent) (hd : c.disposed = false)
    (hnext : (c.clock.now.after? (q.pendingDelay.getD q.options.interval)).isSome)
    (ht : q.timer = none) : (c.settle q).Coherent := by
  obtain ⟨hd', -⟩ | ⟨-, hp, e⟩ | ⟨-, hp, e⟩ := settle_cases c q
  · exact absurd (hd.symm.trans hd') (by simp)
  · rw [e]
    refine h.of_touched (r := q) rfl fun p hp' => ?_
    rcases mem_put.mp hp' with hp' | ⟨rfl, -⟩
    · exact Or.inl hp'
    · exact Or.inr (Registration.coherent_rested hp ht)
  · rw [e]
    have hp' : { q with pendingDelay := none }.isPaused c.gates = false := hp
    exact h.of_touched schedule_gates fun p hmem => coherent_schedule hnext hp' (fun _ => ht) hmem

end Coordinator

namespace System

open Coordinator

variable {s : System} {r : Registration} {t : Timer}

/-- Nobody forces the gates, and every deadline that is asked for can be named. -/
def Regular (s : System) : Event → Prop
  | .forceGates _ => False
  | _ => s.coordinator.InReach

instance (s : System) : ∀ e, Decidable (s.Regular e)
  | .forceGates _ => isFalse id
  | .register _ | .cleanup _ | .pause _ | .resume _ _ | .pauseHealthAware | .resumeHealthAware _
  | .pauseAuthenticated | .resumeAuthenticated | .refresh | .listen | .dispose | .release
  | .elapse _ | .wake _ | .fire _ | .finish _ _ => inferInstanceAs (Decidable s.coordinator.InReach)

/-- Nobody forces the gates, and the deadlines that the event may ask for can be named. -/
def Foreseen (s : System) : Event → Prop
  | .forceGates _ => False
  | .register o =>
      (s.now.after?
        (s.coordinator.staggerDelay (s.coordinator.vacate o.key).registry.length)).isSome
  | _ => s.coordinator.InSight

theorem Regular.foreseen {e : Event} (h : s.Regular e) : s.Foreseen e := by
  cases e with
  | forceGates g => exact h
  | register o => exact InReach.stagger h _ (vacate_length_le _ _)
  | _ => exact InReach.inSight h

theorem coherent_call {f : Coordinator → Coordinator} (h : s.coordinator.Coherent)
    (hf : (f s.coordinator).Coherent) : (s.call f).coordinator.Coherent := by
  unfold System.call
  split
  · exact hf
  · exact h

/-- Every event but that of forcing the gates keeps the plans coherent. -/
theorem Sound.coherent_step (hs : s.Sound) (h : s.coordinator.Coherent) (e : Event)
    (hsight : s.Foreseen e) : (s.step e).coordinator.Coherent := by
  have ht := hs.tidy
  cases e with
  | register o => exact coherent_call h (h.register o hsight)
  | cleanup handle =>
      refine coherent_call h ?_
      obtain ⟨-, e⟩ | ⟨r, -, -, e⟩ := cleanup_cases s.coordinator handle <;> rw [e]
      · exact h
      · exact h.remove r
  | pause key => exact coherent_call h (h.pause key)
  | resume key jitter => exact coherent_call h (h.resume ht hsight key jitter)
  | pauseHealthAware => exact coherent_call h (h.pauseHealthAware ht)
  | resumeHealthAware jitter => exact coherent_call h (h.resumeHealthAware ht hsight jitter)
  | pauseAuthenticated => exact coherent_call h (h.pauseAuthenticated ht)
  | resumeAuthenticated => exact coherent_call h (h.resumeAuthenticated ht hsight)
  | refresh => exact coherent_call h (h.refresh ht hsight)
  | listen =>
      refine coherent_call h ?_
      unfold Coordinator.listen
      split <;> exact h
  | forceGates g => exact hsight.elim
  | dispose =>
      refine coherent_call h ?_
      obtain ⟨-, e⟩ | ⟨-, -, hnil, -⟩ := dispose_cases ht
      · rw [e]; exact h
      · intro r hr
        rw [hnil] at hr
        exact absurd hr (by simp)
  | release => exact fun r hr => absurd hr (by simp [System.step, System.release])
  | elapse d => exact h
  | wake n =>
      show (s.wake n).coordinator.Coherent
      unfold System.wake
      split <;> exact h
  | fire n =>
      show (s.fire n).1.coordinator.Coherent
      obtain e | e | ⟨-, -, t, -, -, -, r, hr, -, hrt, ⟨hp, e⟩ | ⟨hp, e⟩⟩ := hs.fire_cases n <;>
        rw [e]
      · exact h
      · exact h
      · have htimer := (h r hr).timer
        rw [hrt, hp] at htimer
        exact absurd htimer (by simp)
      · refine h.of_touched (r := r) rfl fun q hq => ?_
        rcases mem_put.mp hq with hq | ⟨rfl, -⟩
        · exact Or.inl hq
        · exact Or.inr (Registration.coherent_begun hp)
  | finish id failed =>
      show (s.finish id failed).coordinator.Coherent
      obtain ⟨-, e⟩ | ⟨run, hrun, -, ⟨-, e⟩ | ⟨r, hr, hw, e⟩⟩ := hs.finish_cases id failed <;>
        rw [e]
      · exact h
      · exact h
      · have hnone := ht.timer_none hr (Registration.awaitedRun_eq_some.mp hw).1
        refine h.settle (hs.undisposed hr) ?_ ?_ <;> unfold Registration.afterRun <;> split
        · exact hsight.next r hr
        · exact hsight.next r hr
        · exact hnone
        · exact hnone

/-! ### Every regular history -/

/--
**Plans, pauses and timers agree in every regular history.**  A registration is in the state of a
paused one exactly when it is paused, and then nothing is planned for it.  Any other
either waits for the end of a run or is scheduled, and then exactly one timer will start
its next run.
-/
theorem plan_coherent (config : CoordinatorConfig) (clock : Clock) (draws : Draws)
    (events : List Event) (h : Lawful Regular (initial config clock draws) events) :
    let s := (initial config clock draws).run events
    let gates := s.coordinator.gates
    ∀ r ∈ s.coordinator.registry,
      (r.state = .paused ↔ r.isPaused gates = true) ∧
      (r.isPaused gates = true → r.pendingDelay = none ∧ s.Untimed r) ∧
      (r.isPaused gates = false →
        (r.inFlight = false ∧ r.state = .scheduled ∧ ∃ t, s.TimedBy r t) ∨
        (r.inFlight = true ∧ r.state = .running ∧ s.Untimed r)) := by
  intro s gates r hr
  have hstep : ∀ s e, Sound s ∧ s.coordinator.Coherent → s.Regular e →
      Sound (s.step e) ∧ (s.step e).coordinator.Coherent :=
    fun s e ⟨hs, hc⟩ hreg => ⟨hs.step e, hs.coherent_step hc e hreg.foreseen⟩
  have hfirst : Sound (initial config clock draws) ∧
      (initial config clock draws).coordinator.Coherent :=
    ⟨sound_initial config clock draws, fun r hr => absurd hr (by simp [initial])⟩
  obtain ⟨hs, hc⟩ : Sound s ∧ s.coordinator.Coherent := h.run hstep hfirst
  have hcoh : r.Coherent gates := hc r hr
  refine ⟨hcoh.state_paused_iff, fun hp => ⟨hcoh.pending hp, hs.untimed hr ?_⟩, fun hp => ?_⟩
  · have htimer := hcoh.timer
    rw [hp] at htimer
    simpa using htimer
  · have hstate := hcoh.state
    have htimer := hcoh.timer
    rw [hp] at hstate htimer
    cases hf : r.inFlight with
    | false => exact Or.inl ⟨rfl, by simpa [hf] using hstate, hs.timed hr (by simp [htimer, hf])⟩
    | true =>
        exact Or.inr ⟨rfl, by simpa [hf] using hstate, hs.untimed hr (hs.tidy.timer_none hr hf)⟩

/-- One poll is replaced during its run, both pause in between, and both resume with jitter. -/
def outage : List Event :=
  [.register { key := "feed", interval := .ofSeconds 60 },
    .register { key := "inbox", interval := .ofSeconds 5, requiresAuth := true },
    .fire 0, .elapse (.ofSeconds 1), .wake 1, .pauseHealthAware,
    .register { key := "feed", interval := .ofSeconds 60 }, .fire 1, .resumeHealthAware true,
    .finish 0 true]

theorem plan_coherent_outage :
    let start := initial { jitterMax := .ofMillis 20 } default ⟨[7, 13], []⟩
    let s := start.run outage
    let gates := s.coordinator.gates
    Lawful Regular start outage ∧
    ∀ r ∈ s.coordinator.registry,
      (r.state = .paused ↔ r.isPaused gates = true) ∧
      (r.isPaused gates = true → r.pendingDelay = none ∧ s.Untimed r) ∧
      (r.isPaused gates = false →
        (r.inFlight = false ∧ r.state = .scheduled ∧ ∃ t, s.TimedBy r t) ∨
        (r.inFlight = true ∧ r.state = .running ∧ s.Untimed r)) := by
  have h : Lawful Regular (initial { jitterMax := .ofMillis 20 } default ⟨[7, 13], []⟩) outage := by
    decide +kernel
  exact ⟨h, plan_coherent _ _ _ _ h⟩

end System

end FeedPoller
