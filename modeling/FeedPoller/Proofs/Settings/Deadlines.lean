/-
The settings and the scheduler's clock.

The validator bounds no interval from above, and the clock ends.  What a coordinator can ask
for is known in advance, though: the interval of a feed, the place of a feed in the order
times the stagger step, or a random delay under the jitter's bound.  `Asks` lists these delays,
and a history of polls of the settings asks for no others, not even through the delays that
are kept while a run goes on.  So the clock can name every deadline up to a point in time if it
can name those that the settings ask for at that very point.
-/
import FeedPoller.Daemon.Launch
import FeedPoller.Proofs.Poll.Coherence
import FeedPoller.Proofs.Poll.Gates
import FeedPoller.Proofs.Poll.Handles
import Mathlib.Data.List.Perm.Subperm

namespace FeedPoller

theorem Instant.after_isSome {t : Instant} {d : Duration} :
    (t.after? d).isSome ↔ t.nanos + d.nanos < horizon := by
  unfold after?
  split
  · next h => exact ⟨fun _ => h, fun _ => rfl⟩
  · next h => exact ⟨fun hsome => absurd hsome (by simp), fun hlt => absurd hlt h⟩

theorem Instant.after_mono {t u : Instant} {d : Duration} (h : t ≤ u)
    (hu : (u.after? d).isSome) : (t.after? d).isSome :=
  after_isSome.mpr (Nat.lt_of_le_of_lt (Nat.add_le_add_right h _) (after_isSome.mp hu))

theorem Instant.after_le {t : Instant} {d e : Duration} (h : d.nanos ≤ e.nanos)
    (he : (t.after? e).isSome) : (t.after? d).isSome :=
  after_isSome.mpr (Nat.lt_of_le_of_lt (Nat.add_le_add_left h _) (after_isSome.mp he))

theorem Duration.times_le {d : Duration} {m n : Nat} (h : m ≤ n) :
    (d.times m).nanos ≤ (d.times n).nanos := by
  have hmul : d.nanos * m ≤ d.nanos * n := Nat.mul_le_mul_left _ h
  simp only [times]
  omega

/-- A deadline some steps away that the clock can name is not cut short by the longest duration. -/
theorem Instant.after_times {t u : Instant} {step : Duration} {n : Nat}
    (h : t.after? (step.times n) = some u) : u.nanos = t.nanos + n * step.nanos := by
  have hlt : t.nanos + (step.times n).nanos < horizon := after_isSome.mp (by simp [h])
  rw [after?, if_pos hlt] at h
  rw [← Option.some.inj h]
  have hlongest : horizon ≤ Duration.longest.nanos := by decide
  simp only [Duration.times] at hlt ⊢
  rw [Nat.mul_comm n]
  omega

/-- What polls of the settings can ask the clock for. -/
inductive Settings.Asks (settings : Settings) : Duration → Prop where
  | interval {f : FeedConfig} (hf : f ∈ settings.feeds) : Asks settings f.interval
  | stagger {order : Nat} (h : order < settings.feeds.length) :
      Asks settings (settings.polling.coordinatorConfig.staggerStep.times
        (min order (Nat.pow 2 32 - 1)))
  | jitter {ms : Nat} (hne : settings.feeds ≠ [])
      (h : ms < settings.polling.coordinatorConfig.jitterMax.millis64) :
      Asks settings (.ofMillis ms)

/-- An event that registers no poll but those of the settings, and does not force the gates. -/
def Settings.Allows (settings : Settings) : Event → Prop
  | .register o => ∃ f ∈ settings.feeds, o = f.pollOptions
  | .forceGates _ => False
  | _ => True

namespace Coordinator

variable {c c' : Coordinator} {r q : Registration} {d : Duration} {D : Duration → Prop}

/-! ### Delays that are kept -/

/-- Whatever delay is kept for the end of a run is one of those. -/
def Keeping (c : Coordinator) (D : Duration → Prop) : Prop :=
  ∀ r ∈ c.registry, ∀ d, r.pendingDelay = some d → D d

theorem Keeping.put (h : c.Keeping D) (hr : ∀ d, r.pendingDelay = some d → D d) :
    (c.put r).Keeping D := by
  intro q hq
  rcases mem_put.mp hq with ⟨hq, -⟩ | ⟨rfl, -⟩
  · exact h q hq
  · exact hr

theorem Keeping.schedule (h : c.Keeping D) (hr : ∀ d, r.pendingDelay = some d → D d) (hd : D d) :
    (c.schedule r d).Keeping D := by
  obtain ⟨-, e⟩ | ⟨-, deadline, -, e⟩ | ⟨-, -, e⟩ := schedule_cases c r d <;> rw [e]
  · exact h.put fun d' hd' => Option.some.inj hd' ▸ hd
  · exact Keeping.put (c := c.disarm r) h hr
  · exact Keeping.put (c := c.disarm r) h hr

theorem Move.keeping (hm : Move c c') (h : c.Keeping D) (hD : ∀ d, c.Resumes d → D d) :
    c'.Keeping D ∧ c'.config = c.config := by
  cases hm with
  | @suspend r q hr hq =>
      exact ⟨Keeping.put (c := c.disarm q) h (by simp [Registration.suspended]), rfl⟩
  | @schedule r q d hr hq hd =>
      refine ⟨h.schedule (fun d' hd' => h r hr d' (hq.pending ▸ hd')) (hD d hd), ?_⟩
      exact congrArg (·.2.2) (schedule_setting (c := c))
  | draw | gates | listen => exact ⟨h, rfl⟩

/-- What is asked for when polls are resumed is all that pauses and gates add to what is kept. -/
theorem Moves.keeping (hm : Moves c c') (h : c.Keeping D) (hD : ∀ d, c.Resumes d → D d) :
    c'.Keeping D ∧ c'.config = c.config := by
  induction hm with
  | refl => exact ⟨h, rfl⟩
  | tail _ hmove ih =>
      obtain ⟨hkeep, hconfig⟩ := ih
      obtain ⟨hkeep', hconfig'⟩ := hmove.keeping hkeep fun d hd => hD d (by
        unfold Resumes at hd ⊢
        rwa [hconfig] at hd)
      exact ⟨hkeep', hconfig'.trans hconfig⟩

theorem Keeping.append {o : PollOptions} {awaited : Option Nat} (h : c.Keeping D)
    (hd : D (c.staggerDelay c.registry.length)) : (c.append o awaited).1.Keeping D := by
  have hjoin : (c.join (c.newcomer o awaited)).Keeping D := by
    intro q hq
    rcases List.mem_append.mp hq with hq | hq
    · exact h q hq
    · rw [List.mem_singleton.mp hq]
      exact fun d hd => absurd hd (by simp [newcomer])
  obtain ⟨-, e⟩ | ⟨-, e⟩ := append_cases c o awaited <;> rw [e]
  · exact hjoin.put (by simp [newcomer])
  · exact hjoin.schedule (by simp [newcomer]) hd

theorem append_config (c : Coordinator) (o : PollOptions) (awaited : Option Nat) :
    (c.append o awaited).1.config = c.config := by
  obtain ⟨-, e⟩ | ⟨-, e⟩ := append_cases c o awaited <;> rw [e]
  · rfl
  · exact congrArg (·.2.2) (schedule_setting (c := c.join (c.newcomer o awaited)))

theorem Keeping.settle (h : c.Keeping D) (hr : r ∈ c.registry)
    (hq : q.pendingDelay = r.pendingDelay)
    (hd : D (q.pendingDelay.getD q.options.interval)) :
    (c.settle q).Keeping D ∧ (c.settle q).config = c.config := by
  obtain ⟨-, e⟩ | ⟨-, -, e⟩ | ⟨-, -, e⟩ := settle_cases c q <;> rw [e]
  · exact ⟨h.put fun d hd => h r hr d (hq ▸ hd), rfl⟩
  · exact ⟨h.put (by simp), rfl⟩
  · exact ⟨h.schedule (by simp) hd, congrArg (·.2.2) (schedule_setting (c := c))⟩

theorem dispose_config (c : Coordinator) : c.dispose.config = c.config := by
  unfold dispose
  split
  · rfl
  · exact foldl_eq (f := disarm) (·.config) (fun _ _ => rfl) _ _

end Coordinator

namespace Settings

open Coordinator

variable {settings : Settings} {s s' : System} {e : Event} {limit : Instant}

/-- A system whose polls are those of the settings. -/
structure Governs (settings : Settings) (s : System) : Prop where
  config : s.coordinator.config = settings.polling.coordinatorConfig
  feeds : ∀ r ∈ s.coordinator.registry, ∃ f ∈ settings.feeds, r.options = f.pollOptions
  kept : s.coordinator.Keeping settings.Asks

theorem governs_initial (settings : Settings) (clock : Clock) (draws : Draws) :
    settings.Governs (.initial settings.polling.coordinatorConfig clock draws) where
  config := rfl
  feeds := fun _ hr => absurd hr List.not_mem_nil
  kept := fun _ hr => absurd hr List.not_mem_nil

/-- To ask for a run of a registered poll is to ask for what the settings list. -/
theorem Governs.resumes (h : settings.Governs s) {r : Registration}
    (hr : r ∈ s.coordinator.registry) {d : Duration} (hd : s.coordinator.Resumes d) :
    settings.Asks d := by
  obtain ⟨f, hf, -⟩ := h.feeds r hr
  have hne : settings.feeds ≠ [] := List.ne_nil_of_mem hf
  rcases hd with rfl | ⟨ms, hlt, rfl⟩
  · have hzero : settings.polling.coordinatorConfig.staggerStep.times
        (min 0 (Nat.pow 2 32 - 1)) = .zero := by
      simp [Duration.times, Duration.zero]
    exact hzero ▸ Asks.stagger (List.length_pos_of_ne_nil hne)
  · exact .jitter hne (h.config ▸ hlt)

/-- A newcomer finds fewer polls than there are feeds. -/
theorem Governs.length_lt (h : settings.Governs s) (hs : s.Sound) {f : FeedConfig}
    (hf : f ∈ settings.feeds) :
    (s.coordinator.vacate f.key).registry.length < settings.feeds.length := by
  have hkeys : (f.key :: (s.coordinator.vacate f.key).keys).Nodup := by
    refine List.nodup_cons.mpr ⟨fun hmem => ?_, (hs.tidy.vacate f.key).keys⟩
    obtain ⟨r, hr, hkey⟩ := List.mem_map.mp hmem
    exact (mem_vacate hs.tidy hr).2 hkey
  have hsub : f.key :: (s.coordinator.vacate f.key).keys ⊆ settings.feeds.map (·.key) := by
    intro key hkey
    rcases List.mem_cons.mp hkey with rfl | hkey
    · exact List.mem_map_of_mem hf
    · obtain ⟨r, hr, rfl⟩ := List.mem_map.mp hkey
      obtain ⟨g, hg, ho⟩ := h.feeds r (mem_vacate hs.tidy hr).1
      exact List.mem_map.mpr ⟨g, hg, by rw [Registration.key, ho]; rfl⟩
  have hlen := (hkeys.subperm hsub).length_le
  simp only [List.length_cons, List.length_map, Coordinator.keys] at hlen
  omega

theorem Governs.staggers (h : settings.Governs s) (hs : s.Sound) {f : FeedConfig}
    (hf : f ∈ settings.feeds) :
    settings.Asks (s.coordinator.staggerDelay (s.coordinator.vacate f.key).registry.length) := by
  rw [staggerDelay, h.config]
  exact .stagger (h.length_lt hs hf)

/-- A poll asks for its next run as the settings say, or as it was told during the last one. -/
theorem Governs.next (h : settings.Governs s) {r : Registration}
    (hr : r ∈ s.coordinator.registry) :
    settings.Asks (r.pendingDelay.getD r.options.interval) := by
  cases hp : r.pendingDelay with
  | some d => exact h.kept r hr d hp
  | none =>
      obtain ⟨f, hf, ho⟩ := h.feeds r hr
      rw [ho]
      exact .interval hf

/-- No event that the settings allow brings in other polls or other delays. -/
theorem Governs.step (h : settings.Governs s) (hs : s.Sound) (he : settings.Allows e) :
    settings.Governs (s.step e) := by
  have hfeeds : ∀ r ∈ (s.step e).coordinator.registry,
      ∃ f ∈ settings.feeds, r.options = f.pollOptions := by
    intro r' hr'
    rcases hs.descent e hr' with ⟨hnew, -⟩ | ⟨r, hr, -, ho⟩
    · obtain ⟨o, rfl, ho, -⟩ := hs.new_origin hr' hnew
      obtain ⟨f, hf, rfl⟩ := he
      exact ⟨f, hf, ho⟩
    · exact ho ▸ h.feeds r hr
  suffices hrest : (s.step e).coordinator.Keeping settings.Asks ∧
      (s.step e).coordinator.config = s.coordinator.config from
    ⟨hrest.2.trans h.config, hfeeds, hrest.1⟩
  have ho := hs.outcome e
  generalize s.step e = s' at ho
  cases ho with
  | nothing | elapse | wake | late | unnoticed => exact ⟨h.kept, rfl⟩
  | moves hm =>
      refine ⟨?_, ((hm.spec hs.tidy).2.2).config⟩
      by_cases hnil : s.coordinator.registry = []
      · have haccounts := (hm.spec hs.tidy).2.2.accounts
        rw [hnil] at haccounts
        intro r hr
        rw [List.map_eq_nil_iff.mp haccounts] at hr
        exact absurd hr List.not_mem_nil
      · obtain ⟨r, hr⟩ := List.exists_mem_of_ne_nil _ hnil
        exact (hm.keeping h.kept fun d hd => h.resumes hr hd).1
  | @register o =>
      obtain ⟨f, hf, rfl⟩ := he
      have hvacate : (s.coordinator.vacate f.key).Keeping settings.Asks :=
        fun r hr => h.kept r (mem_vacate hs.tidy hr).1
      have hconfig : (s.coordinator.vacate f.key).config = s.coordinator.config := by
        obtain ⟨_, _, hframe⟩ := vacate_frame s.coordinator f.key
        rw [hframe]
      refine ⟨hvacate.append ?_, (append_config _ _ _).trans hconfig⟩
      have hasks := h.staggers hs hf
      rw [staggerDelay] at hasks ⊢
      rwa [hconfig]
  | cleanup => exact ⟨fun r hr => h.kept r (mem_remove.mp hr).1, rfl⟩
  | dispose =>
      refine ⟨?_, dispose_config _⟩
      obtain ⟨-, e⟩ | ⟨-, -, hnil, -⟩ := dispose_cases hs.tidy
      · rw [e]
        exact h.kept
      · intro r hr
        rw [hnil] at hr
        exact absurd hr List.not_mem_nil
  | release => exact ⟨fun r hr => absurd hr List.not_mem_nil, rfl⟩
  | @skip t r _ hr =>
      exact ⟨Keeping.put (c := s.coordinator.disarm r) h.kept (h.kept r hr), rfl⟩
  | @begin t r _ _ hr =>
      exact ⟨Keeping.put (c := s.coordinator.disarm r) h.kept (h.kept r hr), rfl⟩
  | @settle run failed r _ hr =>
      obtain ⟨hopt, hpend, -⟩ := r.afterRun_plan run s.coordinator.clock.wall failed
      refine h.kept.settle hr hpend ?_
      rw [hopt, hpend]
      exact h.next hr

/-! ### Deadlines that can be named -/

/-- Where the clock can name what the settings ask for, no event asks for more. -/
theorem Governs.foreseen (h : settings.Governs s) (hs : s.Sound) (hle : s.now ≤ limit)
    (hnamed : ∀ d, settings.Asks d → (limit.after? d).isSome) (he : settings.Allows e)
    (hne : settings.feeds ≠ []) : s.Foreseen e := by
  have hnow {d : Duration} (hd : settings.Asks d) : (s.now.after? d).isSome :=
    Instant.after_mono hle (hnamed d hd)
  have hsight : s.coordinator.InSight := by
    refine ⟨?_, fun ms hms => hnow (.jitter hne (h.config ▸ hms)), fun r hr => hnow (h.next hr)⟩
    have hfirst := hnow (.stagger (List.length_pos_of_ne_nil hne))
    exact Nat.lt_of_le_of_lt (Nat.le_add_right _ _) (Instant.after_isSome.mp hfirst)
  cases e with
  | forceGates g => exact he
  | register o =>
      obtain ⟨f, hf, rfl⟩ := he
      exact hnow (h.staggers hs hf)
  | _ => exact hsight

/-- Whether every registered poll that may run and is idle has a timer. -/
def Timed (s : System) : Prop :=
  ∀ r ∈ s.coordinator.registry, r.isPaused s.coordinator.gates = false → r.inFlight = false →
    ∃ t, s.TimedBy r t

theorem timed_of_coherent (hs : s.Sound) (h : s.coordinator.Coherent) : Timed s := by
  intro r hr hp hf
  have htimer := (h r hr).timer
  rw [hp, hf] at htimer
  exact hs.timed hr htimer

theorem now_le_run (s : System) (hs : s.Sound) (events : List Event) :
    s.now ≤ (s.run events).now := by
  have hstep {s : System} (hs : s.Sound) (e : Event) : s.now ≤ (s.step e).now := by
    obtain ⟨d, -, hclock⟩ | hclock := (hs.outcome e).clock_cases hs
    · rw [System.now, System.now, hclock]
      exact Nat.le_add_right _ _
    · exact Nat.le_of_eq (congrArg (·.now.nanos) hclock).symm
  exact hs.invariant (I := fun s' => s.now ≤ s'.now)
    (fun hs e h => Nat.le_trans h (hstep hs e)) (Nat.le_refl _) events

/-- Up to the point where the clock can name what the settings ask for every poll has its timer. -/
theorem timed_run (hnamed : ∀ d, settings.Asks d → (limit.after? d).isSome) {events : List Event}
    (hall : ∀ e ∈ events, settings.Allows e) (hs : s.Sound) (hc : s.coordinator.Coherent)
    (hg : settings.Governs s) (hle : (s.run events).now ≤ limit) : Timed (s.run events) := by
  induction events generalizing s with
  | nil => exact timed_of_coherent hs hc
  | cons e rest ih =>
      have he := hall e (by simp)
      have hg' := hg.step hs he
      refine ih (fun e he => hall e (by simp [he])) (hs.step e) ?_ hg' hle
      by_cases hne : settings.feeds = []
      · -- Where there are no feeds nothing is ever registered.
        intro r hr
        obtain ⟨f, hf, -⟩ := hg'.feeds r hr
        rw [hne] at hf
        exact absurd hf List.not_mem_nil
      · exact hs.coherent_step hc e
          (hg.foreseen hs (Nat.le_trans (now_le_run s hs (e :: rest)) hle) hnamed he hne)

end Settings

end FeedPoller
