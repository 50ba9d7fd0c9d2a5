/-
Deadlines that the clock cannot name.

The list of what the settings ask for is exact: each delay on it is asked for in some history.
The interval of a feed is asked for when its first run ends, a random delay when the feed is
resumed after a pause, and the longest stagger when the feeds before the last have all been
registered.  A deadline that cannot be named leaves its poll without a timer, though it is
shown as scheduled, so the settings keep every poll going up to a point in time exactly if
the clock can name all that they ask for at that point.
-/
import FeedPoller.Proofs.Settings.Deadlines
import FeedPoller.Proofs.Settings.Faults
import FeedPoller.Settings.Load

namespace FeedPoller

theorem Coordinator.schedule_now {c : Coordinator} {r : Registration} {d : Duration} :
    System.now { coordinator := c.schedule r d } = c.clock.now :=
  congrArg (·.2.1.now) schedule_setting

namespace Settings

open Coordinator

variable {settings : Settings} {s : System} {limit : Instant}

/-- A poll whose deadline cannot be named is left without a timer. -/
theorem not_timed_schedule {c : Coordinator} {p r : Registration} {d : Duration} {runs : List Run}
    {woken : List Timer} {alive : Bool} (hmem : p ∈ c.registry) (hid : r.id = p.id)
    (hp : r.isPaused c.gates = false) (hf : r.inFlight = false) (hd : c.clock.now.after? d = none) :
    ¬ Timed { coordinator := c.schedule r d, alive, woken, runs } := by
  intro htimed
  obtain ⟨hf', -⟩ | ⟨-, _, hd', -⟩ | ⟨-, -, e⟩ := schedule_cases c r d
  · exact absurd (hf.symm.trans hf') (by simp)
  · exact absurd (hd.symm.trans hd') (by simp)
  · have hput : r.scheduled ∈ (c.schedule r d).registry := by
      rw [e]
      exact mem_put_self (c := c.disarm r) hmem hid
    have hgates : (c.schedule r d).gates = c.gates := schedule_gates
    obtain ⟨t, ht⟩ := htimed r.scheduled hput (hgates ▸ hp) hf
    exact absurd ht.remembered (by simp [Registration.scheduled, Registration.cancelled])

/-- What the validator accepts the coordinator accepts, and no key comes twice. -/
theorem accepted_of_fault (h : settings.fault? = none) :
    (∀ f ∈ settings.feeds, f.pollOptions.fault? = none) ∧ (settings.feeds.map (·.key)).Nodup := by
  have hwell := wellFormed_of_fault? h
  refine ⟨fun f hf => ?_, List.pairwise_map.mpr hwell.distinct⟩
  have hkey : Text.isBlank f.key = false := by
    simpa [Text.isBlank] using hwell.keys f hf
  have hpos : f.interval.isZero = false := by
    have hseconds := hwell.intervals f hf
    simp only [FeedConfig.interval, Duration.isZero, Duration.ofSeconds, beq_eq_false_iff_ne]
    omega
  simp [PollOptions.fault?, FeedConfig.pollOptions, hkey, hpos]

/-- A feed that is new to an open coordinator asks for its first run by its place. -/
theorem register_new {f : FeedConfig} (hf : f.pollOptions.fault? = none) (ha : s.alive = true)
    (hd : s.coordinator.disposed = false) (hgates : s.coordinator.gates = {})
    (hnew : ∀ r ∈ s.coordinator.registry, r.key ≠ f.key) :
    s.step (.register f.pollOptions) = s.call fun c =>
      (c.join (c.newcomer f.pollOptions none)).schedule (c.newcomer f.pollOptions none)
        (c.staggerDelay c.registry.length) := by
  show (s.call fun c => (c.register f.pollOptions).1) = _
  rw [System.call, System.call, if_pos ha, if_pos ha]
  obtain ⟨hbad, -⟩ | ⟨-, -, e⟩ := register_cases s.coordinator f.pollOptions
  · simp [hf, hd] at hbad
  · rw [e]
    obtain ⟨-, hv, hawaited⟩ | ⟨q, hq, hkey, -⟩ := vacate_cases s.coordinator f.pollOptions.key
    · rw [hv, hawaited]
      obtain ⟨hclosed, -⟩ | ⟨-, e⟩ := append_cases s.coordinator f.pollOptions none
      · rw [hgates] at hclosed
        exact absurd hclosed (by simp [Registration.gateClosed])
      · rw [e]
    · exact absurd hkey (hnew q hq)

/-- The clock stands still while nobody lets time pass. -/
theorem step_now (hs : s.Sound) {e : Event} (h : ∀ d, e ≠ .elapse d) : (s.step e).now = s.now := by
  obtain ⟨d, rfl, -⟩ | hclock := (hs.outcome e).clock_cases hs
  · exact absurd rfl (h d)
  · exact congrArg (·.now) hclock

/-- A system at a point in time in which the first feeds of the settings are registered. -/
structure Opened (settings : Settings) (limit : Instant) (order : Nat) (s : System) : Prop where
  sound : s.Sound
  governs : settings.Governs s
  now : s.now = limit
  gates : s.coordinator.gates = {}
  running : s.ledger.closed = false
  keys : s.ledger.entries.map (·.key) = (settings.feeds.take order).map (·.key)

theorem Opened.alive {order : Nat} (h : settings.Opened limit order s) :
    s.alive = true ∧ s.coordinator.disposed = false := by
  simpa [System.ledger] using h.running

theorem Opened.registered {order : Nat} (h : settings.Opened limit order s) :
    s.coordinator.keys = (settings.feeds.take order).map (·.key) := by
  rw [← h.keys, System.ledger, List.map_map]
  rfl

/-- The feed that comes next is new. -/
theorem Opened.fresh {order : Nat} (h : settings.Opened limit order s)
    (hnodup : (settings.feeds.map (·.key)).Nodup) (horder : order < settings.feeds.length) :
    settings.feeds[order].key ∉ s.coordinator.keys := by
  intro hmem
  rw [h.registered] at hmem
  have hdistinct := hnodup.sublist ((List.take_sublist (order + 1) settings.feeds).map (·.key))
  rw [List.take_succ_eq_append_getElem horder, List.map_append] at hdistinct
  exact (List.nodup_append.mp hdistinct).2.2 _ hmem _ (by simp) rfl

/-- The next feed is entered after the others. -/
theorem Opened.step {order : Nat} (h : settings.Opened limit order s)
    (hok : settings.fault? = none) (horder : order < settings.feeds.length) :
    settings.Opened limit (order + 1) (s.step (.register settings.feeds[order].pollOptions)) := by
  obtain ⟨hfault, hnodup⟩ := accepted_of_fault hok
  have hf : settings.feeds[order] ∈ settings.feeds := List.getElem_mem horder
  have hledger := h.sound.ledger_step (.register settings.feeds[order].pollOptions)
  have hkept : s.ledger.entries.filter (·.key != settings.feeds[order].key) = s.ledger.entries := by
    refine List.filter_eq_self.mpr fun handle hhandle => ?_
    have hne : handle.key ≠ settings.feeds[order].key := by
      intro hkey
      refine h.fresh hnodup horder ?_
      rw [← hkey, h.registered, ← h.keys]
      exact List.mem_map_of_mem hhandle
    simpa using hne
  have hopen : (s.ledger.closed || settings.feeds[order].pollOptions.fault?.isSome) = false := by
    rw [h.running, hfault _ hf]
    rfl
  rw [Ledger.enter, if_neg (by simp [hopen])] at hledger
  refine ⟨h.sound.step _, h.governs.step h.sound ⟨_, hf, rfl⟩, ?_, ?_, ?_, ?_⟩
  · exact (step_now h.sound (by simp)).trans h.now
  · exact (System.step_gates (e := .register _) trivial).trans h.gates
  · exact (congrArg Ledger.closed hledger).trans h.running
  · refine (congrArg (fun l => l.entries.map (·.key)) hledger).trans ?_
    show (s.ledger.entries.filter (·.key != settings.feeds[order].key) ++
      [PollHandle.mk settings.feeds[order].key s.ledger.next]).map (·.key) = _
    rw [hkept, List.map_append, h.keys, List.take_succ_eq_append_getElem horder, List.map_append]
    rfl

/-- The calls that register some feeds in turn. -/
def registrations (feeds : List FeedConfig) : List Event :=
  feeds.map fun f => .register f.pollOptions

/-- One feed after the other is registered once the time has come. -/
theorem opened_registrations (hok : settings.fault? = none) {clock : Clock}
    (hle : clock.now ≤ limit) (draws : Draws) {order : Nat}
    (horder : order ≤ settings.feeds.length) :
    settings.Opened limit order
      ((System.initial settings.polling.coordinatorConfig clock draws).run
        (.elapse ⟨limit.nanos - clock.now.nanos⟩ ::
          registrations (settings.feeds.take order))) := by
  have hfirst := System.sound_initial settings.polling.coordinatorConfig clock draws
  induction order with
  | zero =>
      have hallowed : settings.Allows (.elapse ⟨limit.nanos - clock.now.nanos⟩) := trivial
      refine ⟨hfirst.run _, (governs_initial settings clock draws).step hfirst hallowed, ?_,
        rfl, rfl, rfl⟩
      have hlim : clock.now.nanos ≤ limit.nanos := hle
      show Instant.mk (clock.now.nanos + (limit.nanos - clock.now.nanos)) = limit
      rw [Nat.add_sub_cancel' hlim]
  | succ order ih =>
      have hnext := (ih (Nat.le_of_succ_le horder)).step hok horder
      rw [registrations, List.take_succ_eq_append_getElem horder, List.map_append,
        ← List.cons_append, System.run_append]
      exact hnext

theorem isPaused_open {r : Registration} (h : r.explicitlyPaused = false) :
    r.isPaused {} = false := by
  simp [Registration.isPaused, Registration.gateClosed, h]

theorem later_sub {t : Instant} (h : t ≤ limit) : t.later ⟨limit.nanos - t.nanos⟩ = limit := by
  have hle : t.nanos ≤ limit.nanos := h
  show Instant.mk (t.nanos + (limit.nanos - t.nanos)) = limit
  rw [Nat.add_sub_cancel' hle]

/-- A history of accepted settings that ends with a poll that has no timer. -/
def Fails (settings : Settings) (clock : Clock) (limit : Instant) : Prop :=
  ∃ draws events, (∀ e ∈ events, settings.Allows e) ∧
    ((System.initial settings.polling.coordinatorConfig clock draws).run events).now ≤ limit ∧
    ¬ Timed ((System.initial settings.polling.coordinatorConfig clock draws).run events)

/-- The stagger of a place is asked for when as many feeds are registered as that. -/
theorem fails_stagger (hok : settings.fault? = none) {clock : Clock} (hle : clock.now ≤ limit)
    {order : Nat} (horder : order < settings.feeds.length)
    (hnone : limit.after? (settings.polling.coordinatorConfig.staggerStep.times
      (min order (Nat.pow 2 32 - 1))) = none) :
    settings.Fails clock limit := by
  obtain ⟨hfault, hnodup⟩ := accepted_of_fault hok
  have hopened := opened_registrations hok hle ⟨[], []⟩ (Nat.le_of_lt horder)
  have hnext := opened_registrations hok hle ⟨[], []⟩ horder
  refine ⟨⟨[], []⟩, _, ?_, Nat.le_of_eq (congrArg Instant.nanos hnext.now), ?_⟩
  · intro e he
    rcases List.mem_cons.mp he with rfl | he
    · exact trivial
    · obtain ⟨g, hg, rfl⟩ := List.mem_map.mp he
      exact ⟨g, List.mem_of_mem_take hg, rfl⟩
  · rw [registrations, List.take_succ_eq_append_getElem horder, List.map_append,
      ← List.cons_append, System.run_append]
    rw [registrations] at hopened
    generalize System.run _ _ = s at hopened ⊢
    show ¬ Timed (s.step (.register settings.feeds[order].pollOptions))
    have hnew : ∀ r ∈ s.coordinator.registry, r.key ≠ settings.feeds[order].key :=
      fun r hr hkey => hopened.fresh hnodup horder (hkey ▸ List.mem_map_of_mem hr)
    have hlength : s.coordinator.registry.length = order := by
      have hcount := congrArg List.length hopened.registered
      simp only [Coordinator.keys, List.length_map, List.length_take] at hcount
      omega
    rw [register_new (hfault _ (List.getElem_mem horder)) hopened.alive.1 hopened.alive.2
      hopened.gates hnew, System.call, if_pos hopened.alive.1]
    refine not_timed_schedule (c := s.coordinator.join _) mem_join_self rfl ?_ rfl ?_
    · show Registration.isPaused _ s.coordinator.gates = false
      rw [hopened.gates]
      exact isPaused_open rfl
    · show s.now.after? _ = none
      rw [hopened.now, hlength, staggerDelay, hopened.governs.config]
      exact hnone

/-! ### One poll -/

/-- A poll that has just been registered as the first one. -/
def first (o : PollOptions) : Registration where
  id := 0
  options := o
  order := 0
  state := .scheduled
  epoch := 1
  timer := some 0

/-- That poll when it has been paused, and when its pause has been lifted. -/
def held (o : PollOptions) (explicitlyPaused : Bool) : Registration where
  id := 0
  options := o
  order := 0
  explicitlyPaused := explicitlyPaused
  state := .paused
  epoch := 2

/-- A system in which nothing was ever registered but one poll. -/
def lone (settings : Settings) (clock : Clock) (draws : Draws) (r : Registration)
    (timers : List Timer) (runs : List Run) : System where
  coordinator :=
    { config := settings.polling.coordinatorConfig, clock, draws
      registry := [r], timers, armed := 1, nextId := 1 }
  runs := runs

variable {clock : Clock} {draws : Draws} {o : PollOptions} {r : Registration}

/-- The first poll has a timer at once. -/
theorem register_first (ho : o.fault? = none) (hnow : clock.now.nanos < Instant.horizon) :
    (System.initial settings.polling.coordinatorConfig clock draws).step (.register o) =
      settings.lone clock draws (first o) [⟨0, 0, 1, clock.now⟩] [] := by
  have hdeadline : clock.now.after? (settings.polling.coordinatorConfig.staggerStep.times 0) =
      some clock.now := by
    simp [Instant.after?, Duration.times, hnow]
  simp [System.step, System.call, System.initial, register, ho, vacate, find?, append, newcomer,
    join, Registration.gateClosed, schedule, staggerDelay, awaitedFor, hdeadline, arm, disarm, put,
    Registration.scheduled, Registration.cancelled, lone, first]

theorem fire_first :
    (settings.lone clock draws (first o) [⟨0, 0, 1, clock.now⟩] []).step (.fire 0) =
      settings.lone clock draws (first o).begun [] [⟨0, o.key⟩] := by
  have hdue : (settings.lone clock draws (first o) [⟨0, 0, 1, clock.now⟩] []).dueTimers =
      [⟨0, 0, 1, clock.now⟩] := by
    refine List.filter_eq_self.mpr fun t ht => ?_
    rw [List.mem_singleton.mp ht]
    exact decide_eq_true (Nat.le_refl _)
  rw [System.step, System.fire, hdue]
  simp [lone, beginRun, strike, findId?, first, Registration.isPaused, Registration.gateClosed,
    put, Registration.begun, Registration.key]

theorem elapse_lone (d : Duration) {timers : List Timer} {runs : List Run} :
    (settings.lone clock draws r timers runs).step (.elapse d) =
      settings.lone (clock.advance d) draws r timers runs := rfl

theorem finish_first :
    (settings.lone clock draws (first o).begun [] [⟨0, o.key⟩]).step (.finish 0 false) =
      { coordinator := (settings.lone clock draws (first o).begun [] []).coordinator.schedule
          ((first o).begun.completed clock.wall false) o.interval } := by
  simp [System.step, System.finish, lone, System.call, finishRun, findId?, settle,
    first, Registration.begun, Registration.completed, Registration.isPaused,
    Registration.gateClosed]

theorem pause_first :
    (settings.lone clock draws (first o) [⟨0, 0, 1, clock.now⟩] []).step (.pause o.key) =
      settings.lone clock draws (held o true) [] [] := by
  simp [System.step, System.call, lone, pause, find?, Registration.key, first, held, suspend,
    disarm, put, Registration.suspended, Registration.cancelled]

theorem resumeDelay_draw {c : Coordinator} {ms : Nat} (h : ms < c.config.jitterMax.millis64)
    (hd : c.draws = ⟨[ms], []⟩) :
    c.resumeDelay true =
      (.ofMillis ms, { c with draws := ⟨[], [(c.config.jitterMax.millis64, ms)]⟩ }) := by
  have hpos : ¬((!true || c.config.jitterMax.millis64 == 0) = true) := by
    simp
    omega
  simp only [resumeDelay, if_neg hpos, hd, Draws.below, List.headD_cons, Nat.mod_eq_of_lt h,
    List.tail_cons]

theorem resume_paused {c c' : Coordinator} {key : String} {jitter : Bool} {d : Duration}
    (hfind : c.find? key = some r) (hopen : r.gateClosed c.gates = false)
    (hpaused : r.explicitlyPaused = true) (hdelay : c.resumeDelay jitter = (d, c')) :
    c.resume key jitter = c'.schedule { r with explicitlyPaused := false } d := by
  rw [resume, hfind]
  simp only [hopen, hpaused, hdelay, Bool.false_eq_true, if_false, Bool.not_true, Bool.false_and]

theorem resume_held (clock : Clock) (o : PollOptions) {ms : Nat}
    (h : ms < settings.polling.coordinatorConfig.jitterMax.millis64) :
    ∃ draws, (settings.lone clock ⟨[ms], []⟩ (held o true) [] []).step (.resume o.key true) =
      { coordinator := (settings.lone clock draws (held o true) [] []).coordinator.schedule
          (held o false) (.ofMillis ms) } := by
  have hfind : (settings.lone clock ⟨[ms], []⟩ (held o true) [] []).coordinator.find? o.key =
      some (held o true) := by
    simp [lone, find?, Registration.key, held]
  have hopen : (held o true).gateClosed {} = false := by
    simp [Registration.gateClosed]
  have hresume := resume_paused hfind hopen rfl (resumeDelay_draw h rfl)
  exact ⟨_, congrArg (fun c => System.mk c true [] []) hresume⟩

/-- The interval of a feed is asked for when its first run ends. -/
theorem fails_interval (hok : settings.fault? = none) (hle : clock.now ≤ limit)
    (hlimit : limit.nanos < Instant.horizon) {f : FeedConfig} (hf : f ∈ settings.feeds)
    (hnone : limit.after? f.interval = none) : settings.Fails clock limit := by
  have hfault := (accepted_of_fault hok).1 f hf
  have hnow : (clock.advance ⟨limit.nanos - clock.now.nanos⟩).now = limit := later_sub hle
  refine ⟨⟨[], []⟩, [.register f.pollOptions, .fire 0, .elapse ⟨limit.nanos - clock.now.nanos⟩,
    .finish 0 false], ?_, ?_⟩
  · intro e he
    simp only [List.mem_cons, List.not_mem_nil, or_false] at he
    rcases he with rfl | rfl | rfl | rfl
    · exact ⟨f, hf, rfl⟩
    · trivial
    · trivial
    · trivial
  · have hlow : clock.now.nanos < Instant.horizon := Nat.lt_of_le_of_lt hle hlimit
    simp only [System.run, List.foldl_cons, List.foldl_nil, register_first hfault hlow, fire_first,
      elapse_lone, finish_first]
    refine ⟨?_, not_timed_schedule (p := (first f.pollOptions).begun) (by simp [lone]) rfl
      (isPaused_open rfl) rfl ?_⟩
    · rw [schedule_now]
      exact Nat.le_of_eq (congrArg Instant.nanos hnow)
    · show Instant.after? (clock.advance _).now f.pollOptions.interval = none
      rw [hnow]
      exact hnone

/-- A random delay is asked for when the feed is resumed after a pause. -/
theorem fails_jitter (hok : settings.fault? = none) (hle : clock.now ≤ limit)
    (hlimit : limit.nanos < Instant.horizon) (hne : settings.feeds ≠ []) {ms : Nat}
    (hms : ms < settings.polling.coordinatorConfig.jitterMax.millis64)
    (hnone : limit.after? (.ofMillis ms) = none) : settings.Fails clock limit := by
  obtain ⟨f, hf⟩ := List.exists_mem_of_ne_nil _ hne
  have hfault := (accepted_of_fault hok).1 f hf
  have hnow : (clock.advance ⟨limit.nanos - clock.now.nanos⟩).now = limit := later_sub hle
  refine ⟨⟨[ms], []⟩, [.register f.pollOptions, .pause f.pollOptions.key,
    .elapse ⟨limit.nanos - clock.now.nanos⟩, .resume f.pollOptions.key true], ?_, ?_⟩
  · intro e he
    simp only [List.mem_cons, List.not_mem_nil, or_false] at he
    rcases he with rfl | rfl | rfl | rfl
    · exact ⟨f, hf, rfl⟩
    · trivial
    · trivial
    · trivial
  · have hlow : clock.now.nanos < Instant.horizon := Nat.lt_of_le_of_lt hle hlimit
    obtain ⟨draws, hresume⟩ :=
      resume_held (clock.advance ⟨limit.nanos - clock.now.nanos⟩) f.pollOptions hms
    simp only [System.run, List.foldl_cons, List.foldl_nil, register_first hfault hlow, pause_first,
      elapse_lone, hresume]
    refine ⟨?_, not_timed_schedule (p := held f.pollOptions true) (by simp [lone]) rfl
      (isPaused_open rfl) rfl ?_⟩
    · rw [schedule_now]
      exact Nat.le_of_eq (congrArg Instant.nanos hnow)
    · show Instant.after? (clock.advance _).now (.ofMillis ms) = none
      rw [hnow]
      exact hnone

/-- What the settings ask for and the clock cannot name, some history asks for. -/
theorem Asks.fails {d : Duration} (hd : settings.Asks d) (hok : settings.fault? = none)
    (hle : clock.now ≤ limit) (hnone : limit.after? d = none) : settings.Fails clock limit := by
  by_cases hlimit : limit.nanos < Instant.horizon
  · cases hd with
    | interval hf => exact fails_interval hok hle hlimit hf hnone
    | stagger horder => exact fails_stagger hok hle horder hnone
    | jitter hne hms => exact fails_jitter hok hle hlimit hne hms hnone
  · -- Past the horizon not even the first registration can be scheduled.
    have hfeeds : 0 < settings.feeds.length := by
      cases hd with
      | interval hf => exact List.length_pos_of_mem hf
      | stagger horder => omega
      | jitter hne => exact List.length_pos_of_ne_nil hne
    refine fails_stagger hok hle hfeeds (if_neg ?_)
    omega

/--
Settings that are accepted keep every poll going up to a point in time if the clock can name
at that point whatever they ask for, and otherwise some history leaves a poll without a timer.
-/
theorem timed_iff_named (hok : settings.fault? = none) (hle : clock.now ≤ limit) :
    (∀ draws events, (∀ e ∈ events, settings.Allows e) →
        ((System.initial settings.polling.coordinatorConfig clock draws).run events).now ≤ limit →
        Timed ((System.initial settings.polling.coordinatorConfig clock draws).run events)) ↔
      ∀ d, settings.Asks d → (limit.after? d).isSome := by
  refine ⟨fun htimed d hd => ?_, fun hnamed draws events hall hnow => ?_⟩
  · by_contra hnone
    obtain ⟨draws, events, hall, hnow, hfails⟩ :=
      hd.fails hok hle (Option.not_isSome_iff_eq_none.mp hnone)
    exact hfails (htimed draws events hall hnow)
  · have hfirst := System.sound_initial settings.polling.coordinatorConfig clock draws
    exact timed_run hnamed hall hfirst (fun r hr => absurd hr List.not_mem_nil)
      (governs_initial settings clock draws) hnow

/-- Whether the clock can name, at a point in time, whatever the settings ask for. -/
def reaches (settings : Settings) (limit : Instant) : Bool :=
  settings.feeds.isEmpty ||
    (settings.feeds.all fun f => (limit.after? f.interval).isSome) &&
    (limit.after? (settings.polling.coordinatorConfig.staggerStep.times
      (min (settings.feeds.length - 1) (Nat.pow 2 32 - 1)))).isSome &&
    (limit.after? (.ofMillis (settings.polling.coordinatorConfig.jitterMax.millis64 - 1))).isSome

/-- The longest stagger and the longest random delay stand for the others. -/
theorem reaches_iff :
    settings.reaches limit = true ↔ ∀ d, settings.Asks d → (limit.after? d).isSome := by
  simp only [reaches, Bool.or_eq_true, Bool.and_eq_true, List.isEmpty_iff, List.all_eq_true]
  constructor
  · rintro (hnil | ⟨⟨hintervals, hstagger⟩, hjitter⟩) d hd
    · cases hd with
      | interval hf => exact absurd hf (by simp [hnil])
      | stagger horder => exact absurd horder (by simp [hnil])
      | jitter hne => exact absurd hnil hne
    · cases hd with
      | interval hf => exact hintervals _ hf
      | @stagger order horder =>
          refine Instant.after_le (Duration.times_le ?_) hstagger
          omega
      | jitter hne hms =>
          refine Instant.after_le (Nat.mul_le_mul_right _ ?_) hjitter
          omega
  · intro hnamed
    by_cases hnil : settings.feeds = []
    · exact Or.inl hnil
    · have hlength := List.length_pos_of_ne_nil hnil
      refine Or.inr ⟨⟨fun f hf => hnamed _ (.interval hf), hnamed _ (.stagger (by omega))⟩, ?_⟩
      by_cases hzero : settings.polling.coordinatorConfig.jitterMax.millis64 = 0
      · refine Instant.after_le (Nat.le_trans (Nat.le_of_eq ?_) (Nat.zero_le _))
          (hnamed _ (.stagger hlength))
        rw [hzero]
        rfl
      · exact hnamed _ (.jitter hnil (by omega))

/-- Settings with two feeds. -/
def commuting : Settings where
  feeds :=
    [{ key := "trains", url := "http://host/trains", intervalSeconds := 30 },
      { key := "roads", url := "http://host/roads", intervalSeconds := 300, requiresAuth := true }]

theorem timed_iff_named_commuting :
    commuting.fault? = none ∧ (default : Clock).now ≤ ⟨Nat.pow 10 25⟩ ∧
    ∀ draws events, (∀ e ∈ events, commuting.Allows e) →
      ((System.initial commuting.polling.coordinatorConfig default draws).run events).now ≤
        ⟨Nat.pow 10 25⟩ →
      Timed ((System.initial commuting.polling.coordinatorConfig default draws).run events) := by
  have hok : commuting.fault? = none := by decide +kernel
  have hle : (default : Clock).now ≤ ⟨Nat.pow 10 25⟩ := Nat.zero_le _
  have hreaches : commuting.reaches ⟨Nat.pow 10 25⟩ = true := by decide +kernel
  exact ⟨hok, hle, (timed_iff_named hok hle).mpr (reaches_iff.mp hreaches)⟩

/-- A settings file with the longest interval that can be written. -/
def patientFile : String :=
  "[[feeds]]\nkey = \"a\"\nurl = \"http://h/a\"\ninterval_secs = 9223372036854775807\n"

/-- What the file says. -/
def patient : Settings where
  feeds := [{ key := "a", url := "http://h/a", intervalSeconds := Nat.pow 2 63 - 1 }]

/-- The first run of the only feed, which ends after a second. -/
def firstRun : List Event :=
  [.register (patient.feeds.head (by decide)).pollOptions, .fire 0, .elapse (.ofSeconds 1),
    .finish 0 false]

/-- The file is accepted, and after its first run the feed is scheduled without a timer. -/
theorem untimed_after_first_run :
    Settings.load "config.toml" (.bytes patientFile.toUTF8) = .ok patient ∧
    (∀ e ∈ firstRun, patient.Allows e) ∧
    ((System.initial patient.polling.coordinatorConfig default ⟨[], []⟩).run
      firstRun).coordinator.timers = [] ∧
    (((System.initial patient.polling.coordinatorConfig default ⟨[], []⟩).run
      firstRun).coordinator.statuses.map fun p => (p.key, p.state, p.isPaused, p.runs)) =
        [("a", .scheduled, false, 1)] ∧
    ¬ Timed ((System.initial patient.polling.coordinatorConfig default ⟨[], []⟩).run firstRun) := by
  have hidle : ∃ r ∈ ((System.initial patient.polling.coordinatorConfig default ⟨[], []⟩).run
      firstRun).coordinator.registry,
      r.isPaused ((System.initial patient.polling.coordinatorConfig default ⟨[], []⟩).run
        firstRun).coordinator.gates = false ∧ r.inFlight = false ∧ r.timer = none := by
    decide +kernel
  refine ⟨by decide +kernel, ?_, by decide +kernel, by decide +kernel, fun htimed => ?_⟩
  · intro e he
    simp only [firstRun, List.mem_cons, List.not_mem_nil, or_false] at he
    rcases he with rfl | rfl | rfl | rfl
    · exact ⟨_, List.head_mem _, rfl⟩
    · trivial
    · trivial
    · trivial
  · obtain ⟨r, hr, hpaused, hflight, hnone⟩ := hidle
    obtain ⟨t, ht⟩ := htimed r hr hpaused hflight
    exact absurd (hnone.symm.trans ht.remembered) (by simp)

end Settings

end FeedPoller
