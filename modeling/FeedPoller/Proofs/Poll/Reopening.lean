/-
A gate that opens.

What a gate has stopped goes on when it opens: a run is asked for of each registration whose pause
is over by that, and of no other.  The scheduler picks them by their states, while the pause is a
matter of the gates.  The two agree as long as nobody forces the gates, and that is all that is
needed of the past.

The rest is an induction over those that are picked.  Each draws its delay after the ones before
it, so the induction carries the draws that are left; and whoever is asked is touched once, so
what the request makes of it outlasts the requests of the others.  It has a timer of its own,
and no request touches that of another registration (`timersOf_schedule_of_ne`).
-/
import FeedPoller.Proofs.Poll.Requests

namespace FeedPoller

namespace Coordinator

variable {c c' : Coordinator} {r q : Registration} {d : Duration} {id : Nat} {jitter : Bool}

/-! ### One request -/

/-- The timers that are armed for a registration. -/
def timersOf (c : Coordinator) (id : Nat) : List Timer := c.timers.filter (·.poll == id)

/--
What a request for a run makes of a registration and its timers.  During a run it is kept;
otherwise one new timer is armed, if there is a name for its deadline.
-/
inductive Urged (now : Instant) (r : Registration) (d : Duration) : Registration → List Timer → Prop
    where
  | kept (hflight : r.inFlight = true) : Urged now r d (r.parked d) []
  | armed (hidle : r.inFlight = false) (n : Nat) {due : Instant} (hdue : now.after? d = some due) :
      Urged now r d { r.scheduled with timer := some n } [⟨n, r.id, r.epoch + 1, due⟩]
  | unarmed (hidle : r.inFlight = false) (hdue : now.after? d = none) : Urged now r d r.scheduled []

theorem Urged.id_eq {now : Instant} {r' : Registration} {timers : List Timer}
    (h : Urged now r d r' timers) : r'.id = r.id := by
  cases h <;> rfl

/-- To stop the timer of a registration is nothing to the others. -/
theorem Tidy.timersOf_disarm_of_ne (h : c.Tidy) (hr : r ∈ c.registry) (hne : id ≠ r.id) :
    (c.disarm r).timersOf id = c.timersOf id := by
  unfold timersOf disarm
  rw [List.filter_filter]
  refine List.filter_congr fun t ht => ?_
  by_cases hpoll : t.poll = id
  · have hother : r.timer ≠ some t.number := by
      intro hn
      exact hne (hpoll.symm.trans (h.poll_eq ht hr hn))
    simp [hpoll, hother]
  · simp [hpoll]

/-- A registration whose timer has been stopped has none. -/
theorem Tidy.timersOf_disarm_self (h : c.Tidy) (hr : r ∈ c.registry) :
    (c.disarm r).timersOf r.id = [] := by
  refine List.filter_eq_nil_iff.mpr fun t ht => ?_
  simpa using h.poll_ne hr (.refl r) ht

theorem timersOf_arm_of_ne {deadline : Instant} (hne : id ≠ r.id) :
    (c.arm r deadline).timersOf id = c.timersOf id := by
  have hnot : (r.id == id) = false := beq_false_of_ne (Ne.symm hne)
  simp [timersOf, arm, List.filter_append, hnot]

theorem timersOf_arm_self (c : Coordinator) (r : Registration) (deadline : Instant) :
    (c.arm r deadline).timersOf r.id = c.timersOf r.id ++ [⟨c.armed, r.id, r.epoch, deadline⟩] := by
  simp [timersOf, arm, List.filter_append]

/-- A request for a run of one registration leaves the timers of the others. -/
theorem Tidy.timersOf_schedule_of_ne (h : c.Tidy) (hr : r ∈ c.registry) (hne : id ≠ r.id) :
    (c.schedule r d).timersOf id = c.timersOf id := by
  have hstopped := h.timersOf_disarm_of_ne hr hne
  obtain ⟨-, e⟩ | ⟨-, deadline, -, e⟩ | ⟨-, -, e⟩ := schedule_cases c r d <;> rw [e]
  · rfl
  · rw [timersOf_arm_of_ne (r := r.scheduled) hne]
    exact hstopped
  · exact hstopped

/-- What a request for a run makes of its own registration. -/
theorem Tidy.urged_schedule (h : c.Tidy) (hr : r ∈ c.registry) (d : Duration) :
    ∃ r' ∈ (c.schedule r d).registry,
      Urged c.clock.now r d r' ((c.schedule r d).timersOf r.id) := by
  have hstopped := h.timersOf_disarm_self hr
  obtain ⟨hflight, e⟩ | ⟨hidle, deadline, hdue, e⟩ | ⟨hidle, hdue, e⟩ := schedule_cases c r d <;>
    rw [e]
  · have hnone : (c.put (r.parked d)).timersOf r.id = [] := by
      refine List.filter_eq_nil_iff.mpr fun t ht hpoll => ?_
      have hremembered := (h.remembered ht hr (eq_of_beq hpoll).symm).1
      rw [h.timer_none hr hflight] at hremembered
      exact absurd hremembered (by simp)
    rw [hnone]
    exact ⟨_, mem_put_self (r := r) hr rfl, .kept hflight⟩
  · have harmed : ((c.disarm r).arm r.scheduled deadline).timersOf r.id =
        (c.disarm r).timersOf r.id ++ [⟨c.armed, r.id, r.epoch + 1, deadline⟩] :=
      timersOf_arm_self (c.disarm r) r.scheduled deadline
    rw [harmed, hstopped]
    exact ⟨_, mem_put_self (c := c.disarm r) (r := r) hr rfl, .armed hidle c.armed hdue⟩
  · have hnone : ((c.disarm r).put r.scheduled).timersOf r.id = [] := hstopped
    rw [hnone]
    exact ⟨_, mem_put_self (c := c.disarm r) (r := r) hr rfl, .unarmed hidle hdue⟩

/-! ### The draws -/

/--
The delays of some polls, and the source of random numbers after they were drawn: each is drawn
for itself, below the bound, or all are zero and nothing is drawn.
-/
structure Drawn (c : Coordinator) (jitter : Bool) (delays : List Duration) (draws : Draws) :
    Prop where
  plain : jitter = false ∨ c.config.jitterMax.millis64 = 0 →
    (∀ d ∈ delays, d = .zero) ∧ draws = c.draws
  random : jitter = true → c.config.jitterMax.millis64 ≠ 0 → ∃ values : List Nat,
    (∀ v ∈ values, v < c.config.jitterMax.millis64) ∧ delays = values.map .ofMillis ∧
    draws = ⟨c.draws.upcoming.drop values.length,
      (values.map fun v => (c.config.jitterMax.millis64, v)).reverse ++ c.draws.made⟩

theorem drawn_nil (c : Coordinator) (jitter : Bool) : Drawn c jitter [] c.draws where
  plain := fun _ => ⟨fun _ hd => absurd hd List.not_mem_nil, rfl⟩
  random := fun _ _ => ⟨[], fun _ hv => absurd hv List.not_mem_nil, rfl, rfl⟩

/-- Whoever draws first draws before the others. -/
theorem Drawn.cons {delays : List Duration} {draws : Draws} (hconfig : c'.config = c.config)
    (hdraws : c'.draws = (c.resumeDelay jitter).2.draws) (h : Drawn c' jitter delays draws) :
    Drawn c jitter ((c.resumeDelay jitter).1 :: delays) draws where
  plain := by
    intro hplain
    have hnone : c.resumeDelay jitter = (.zero, c) :=
      if_pos (by rcases hplain with hj | hb <;> simp [*])
    rw [hnone] at hdraws ⊢
    obtain ⟨hzero, hsame⟩ := h.plain (hconfig ▸ hplain)
    refine ⟨fun d hd => ?_, hsame.trans hdraws⟩
    rcases List.mem_cons.mp hd with rfl | hd
    · rfl
    · exact hzero d hd
  random := by
    intro hjitter hbound
    have hdraw : c.resumeDelay jitter =
        (.ofMillis (c.draws.upcoming.headD 0 % c.config.jitterMax.millis64),
          { c with draws := (c.draws.below c.config.jitterMax.millis64).2 }) :=
      if_neg (by simp [hjitter, hbound])
    rw [hdraw] at hdraws ⊢
    obtain ⟨values, hbelow, hdelays, hlater⟩ := h.random hjitter (hconfig ▸ hbound)
    rw [hconfig] at hbelow hlater
    rw [hdraws] at hlater
    refine ⟨c.draws.upcoming.headD 0 % c.config.jitterMax.millis64 :: values,
      fun v hv => ?_, ?_, ?_⟩
    · rcases List.mem_cons.mp hv with rfl | hv
      · exact Nat.mod_lt _ (Nat.pos_of_ne_zero hbound)
      · exact hbelow v hv
    · rw [hdelays]
      rfl
    · rw [hlater]
      simp [Draws.below]

/-! ### All that are asked -/

/-- What becomes of some registrations that are asked to run, and of the others. -/
structure Asked (c : Coordinator) (rs : List Registration) (delays : List Duration)
    (c' : Coordinator) : Prop where
  rearranged : Rearranged c c'
  listening : c'.listening = c.listening
  gates : c'.gates = c.gates
  /-- Each has a delay of its own. -/
  each : delays.length = rs.length
  urged : ∀ p ∈ rs.zip delays, ∃ r' ∈ c'.registry,
    Urged c.clock.now p.1 p.2 r' (c'.timersOf p.1.id)
  spared : ∀ q ∈ c.registry, q ∉ rs → q ∈ c'.registry ∧ c'.timersOf q.id = c.timersOf q.id

theorem asked_nil (c : Coordinator) : Asked c [] [] c where
  rearranged := .refl c
  listening := rfl
  gates := rfl
  each := rfl
  urged := fun _ hp => absurd hp List.not_mem_nil
  spared := fun _ hq _ => ⟨hq, rfl⟩

/-- What the first request has made of its registration outlasts the requests of the others. -/
theorem Tidy.asked_cons {rest : List Registration} {delays : List Duration} (h : c.Tidy)
    (hr : r ∈ c.registry) (hnew : r.id ∉ rest.map (·.id))
    (ha : Asked (resumeOne jitter c r) rest delays c') :
    Asked c (r :: rest) ((c.resumeDelay jitter).1 :: delays) c' := by
  obtain ⟨draws, hdraw⟩ := c.resumeDelay_draws jitter
  have htidy : Tidy { c with draws } := h.of_registry rfl rfl rfl rfl rfl
  have hfirst : resumeOne jitter c r = { c with draws }.schedule r (c.resumeDelay jitter).1 := by
    rw [resumeOne, hdraw]
  rw [hfirst] at ha
  have hrear : Rearranged c ({ c with draws }.schedule r (c.resumeDelay jitter).1) := by
    obtain ⟨haccounts, hnext, hdisposed, hclock, hconfig⟩ :=
      rearranged_schedule (c := { c with draws }) (d := (c.resumeDelay jitter).1) htidy.uniqueIds
        hr rfl
    exact ⟨haccounts, hnext, hdisposed, hclock, hconfig⟩
  obtain ⟨q, _, _, -, -, hshape⟩ :=
    schedule_shape { c with draws } r (c.resumeDelay jitter).1
  refine ⟨hrear.trans ha.rearranged, ?_, ?_, by simp [ha.each], fun p hp => ?_, fun q hq hno => ?_⟩
  · rw [ha.listening, hshape]
    rfl
  · rw [ha.gates, schedule_gates]
  · rw [List.zip_cons_cons] at hp
    rcases List.mem_cons.mp hp with rfl | hp
    · obtain ⟨r', hr', hurged⟩ := htidy.urged_schedule hr (c.resumeDelay jitter).1
      have hno : r' ∉ rest := by
        intro hin
        exact hnew (hurged.id_eq ▸ List.mem_map_of_mem hin)
      obtain ⟨hkept, htimers⟩ := ha.spared r' hr' hno
      rw [hurged.id_eq] at htimers
      exact ⟨r', hkept, htimers ▸ hurged⟩
    · have hurged := ha.urged p hp
      rwa [hrear.clock] at hurged
  · obtain ⟨hne, hno⟩ := not_or.mp (mt List.mem_cons.mpr hno)
    have hid : q.id ≠ r.id := fun hid => hne (h.uniqueIds.eq hq hr hid)
    obtain ⟨hkept, htimers⟩ := ha.spared q (mem_schedule_of_ne hq hid) hno
    exact ⟨hkept, htimers.trans (htidy.timersOf_schedule_of_ne hr hid)⟩

/-- Those that are asked one after the other draw their delays in that order. -/
theorem Tidy.asked_foldl (jitter : Bool) {rs : List Registration} (h : c.Tidy)
    (hids : (rs.map (·.id)).Nodup)
    (hmem : ∀ r ∈ rs, r ∈ c.registry) :
    ∃ delays, Asked c rs delays (rs.foldl (resumeOne jitter) c) ∧
      Drawn c jitter delays (rs.foldl (resumeOne jitter) c).draws := by
  induction rs generalizing c with
  | nil => exact ⟨[], asked_nil c, drawn_nil c jitter⟩
  | cons r rest ih =>
    obtain ⟨hnew, hnodup⟩ := List.nodup_cons.mp hids
    have hr : r ∈ c.registry := hmem r (by simp)
    have htidy : (resumeOne jitter c r).Tidy := ((resumeOne_moves hr (.refl r)).spec h).1
    have hrest : ∀ q ∈ rest, q ∈ (resumeOne jitter c r).registry := by
      intro q hq
      refine mem_resumeOne_of_ne (hmem q (by simp [hq])) fun hid => ?_
      exact hnew (List.mem_map.mpr ⟨q, hq, hid⟩)
    obtain ⟨delays, hasked, hdrawn⟩ := ih htidy hnodup hrest
    refine ⟨_, h.asked_cons hr hnew hasked, Drawn.cons ?_ ?_ hdrawn⟩
    · exact congrArg (·.2.2) resumeOne_setting
    · obtain ⟨_, _, _, -, -, e⟩ :=
        schedule_shape (c.resumeDelay jitter).2 r (c.resumeDelay jitter).1
      rw [resumeOne, e]
      rfl

/-! ### A gate opens -/

/-- The registrations that a gate has stopped, and that nothing stops any more when it is open. -/
def freed (c : Coordinator) (applies : Registration → Bool) (gates : Gates) : List Registration :=
  c.registry.filter fun r => applies r && r.isPaused c.gates && !r.isPaused gates

/--
A gate has been opened.  Those that it has freed have been asked to run, in their order and each
with a delay of its own, and the others are as they were.
-/
def Reopened (c : Coordinator) (applies : Registration → Bool) (gates : Gates) (jitter : Bool)
    (c' : Coordinator) : Prop :=
  ∃ delays, Asked { c with gates } (c.freed applies gates) delays c' ∧
    Drawn c jitter delays c'.draws

/-- What a gate that opens does goes by the pauses. -/
theorem Still.reopened {applies : Registration → Bool} {gates : Gates} (h : c.Still) (ht : c.Tidy)
    (hother : ∀ r, applies r = false → r.isPaused gates = r.isPaused c.gates) (jitter : Bool) :
    Reopened c applies gates jitter ({ c with gates }.resumeWhere applies jitter) := by
  have hfreed : c.freed applies gates = c.lifted gates := by
    refine List.filter_congr fun r _ => ?_
    cases happlies : applies r with
    | true => simp
    | false => simp [hother r happlies]
  rw [h.resumeWhere_eq hother, ← hfreed]
  have htidy := ht.withGates gates
  obtain ⟨delays, hasked, hdrawn⟩ := htidy.asked_foldl jitter (ht.filter_ids _)
    fun r (hr : r ∈ c.freed applies gates) => (List.mem_filter.mp hr).1
  exact ⟨delays, hasked, ⟨hdrawn.plain, hdrawn.random⟩⟩

/-- A gate that is open already has nothing to do when it is opened. -/
theorem Still.resumeWhere_open {applies : Registration → Bool} {gates : Gates} (h : c.Still)
    (hopen : gates = c.gates) (jitter : Bool) :
    { c with gates }.resumeWhere applies jitter = c := by
  subst hopen
  have hnobody : c.lifted c.gates = [] := by
    refine List.filter_eq_nil_iff.mpr fun r _ => ?_
    cases r.isPaused c.gates <;> simp
  have heq : c.resumeWhere applies jitter = (c.lifted c.gates).foldl (resumeOne jitter) c :=
    h.resumeWhere_eq fun _ _ => rfl
  rw [hnobody] at heq
  exact heq

end Coordinator

namespace System

open Coordinator

variable {s : System}

theorem Sound.still_run (hs : s.Sound) (h : s.coordinator.Still) {events : List Event}
    (hall : ∀ e ∈ events, Unforced e) : (s.run events).coordinator.Still := by
  induction events generalizing s with
  | nil => exact h
  | cons e rest ih =>
    exact ih (hs.step e) (hs.still_unforced h (hall e (by simp))) fun e he => hall e (by simp [he])

/--
**A gate that opens lets those go on that it has stopped, once.**  Whatever has happened, as long
as nobody has forced the gates: the call asks for a run of exactly those registrations that the
gate applies to, that were paused, and that neither their owner nor the other gate keeps
paused.  Each has in its turn drawn a delay of its own, if jitter is wanted and allowed.  All
others keep what they have, their timers too.  A second call right after it changes nothing at
all.
-/
theorem gates_reopened (config : CoordinatorConfig) (clock : Clock) (draws : Draws)
    {events : List Event} (hall : ∀ e ∈ events, Unforced e) :
    let c := ((initial config clock draws).run events).coordinator
    (∀ jitter again,
      Reopened c (·.options.pauseWhenBackendDown) { c.gates with backendAvailable := true } jitter
        (c.resumeHealthAware jitter) ∧
      (c.resumeHealthAware jitter).resumeHealthAware again = c.resumeHealthAware jitter) ∧
    Reopened c (·.options.requiresAuth) { c.gates with authGranted := true } false
      c.resumeAuthenticated ∧
    c.resumeAuthenticated.resumeAuthenticated = c.resumeAuthenticated := by
  intro c
  have ht : c.Tidy := (sound_run config clock draws events).tidy
  have hstill : c.Still := (sound_initial config clock draws).still_run
    (fun r hr => absurd hr List.not_mem_nil) hall
  refine ⟨fun jitter again => ⟨?_, ?_⟩, ?_, ?_⟩
  · refine hstill.reopened ht (fun r happlies => ?_) jitter
    simp [Registration.isPaused, Registration.gateClosed, happlies]
  · have hgates : (c.resumeHealthAware jitter).gates = { c.gates with backendAvailable := true } :=
      resumeWhere_gates _ jitter
    exact (hstill.resumeHealthAware ht jitter).resumeWhere_open (by rw [hgates]) again
  · refine hstill.reopened ht (fun r happlies => ?_) false
    simp [Registration.isPaused, Registration.gateClosed, happlies]
  · have hgates : c.resumeAuthenticated.gates = { c.gates with authGranted := true } :=
      resumeWhere_gates _ false
    exact (hstill.resumeAuthenticated ht).resumeWhere_open (by rw [hgates]) false

/--
An outage in the middle of a run, after the user has signed out.  One poll is paused by its owner
and one waits for the user.
-/
def blackout : List Event :=
  [.register { key := "feed", interval := .ofSeconds 60 },
    .register { key := "inbox", interval := .ofSeconds 5, requiresAuth := true },
    .register { key := "news", interval := .ofSeconds 5 },
    .register { key := "clock", interval := .ofSeconds 5, pauseWhenBackendDown := false },
    .register { key := "weather", interval := .ofSeconds 5 },
    .fire 0, .pause "news", .pauseAuthenticated, .pauseHealthAware]

theorem gates_reopened_blackout :
    let c := ((initial {} default ⟨[7, 13], []⟩).run blackout).coordinator
    let gates := { c.gates with backendAvailable := true }
    (∀ e ∈ blackout, Unforced e) ∧
    (c.freed (·.options.pauseWhenBackendDown) gates).map (fun r => (r.key, r.inFlight)) =
      [("feed", true), ("weather", false)] ∧
    (c.resumeHealthAware true).draws = ⟨[], [(5000, 13), (5000, 7)]⟩ ∧
    Reopened c (·.options.pauseWhenBackendDown) gates true (c.resumeHealthAware true) ∧
    (c.resumeHealthAware true).resumeHealthAware false = c.resumeHealthAware true := by
  intro c gates
  have hall : ∀ e ∈ blackout, Unforced e := by decide +kernel
  have hfreed :
      (c.freed (·.options.pauseWhenBackendDown) gates).map (fun r => (r.key, r.inFlight)) =
        [("feed", true), ("weather", false)] := by decide +kernel
  have hdraws : (c.resumeHealthAware true).draws = ⟨[], [(5000, 13), (5000, 7)]⟩ := by
    decide +kernel
  obtain ⟨hhealth, -⟩ := gates_reopened {} default ⟨[7, 13], []⟩ hall
  exact ⟨hall, hfreed, hdraws, hhealth true false⟩

end System

end FeedPoller
