/-
A pause that was asked for by name.

A poll is asked to run again by a resume, by a gate that opens, by a refresh and by the end of
a run, and its timer may have its turn.  Each of these tells paused polls in its own way:
by the state that is stored, by the gates of the moment, or by both.  What makes a pause by
name outlast them all is that no test is passed by a registration with the flag of such a
pause (`Held`), and that only a resume of that key takes the flag away, and only when it finds
no gate closed.  So nothing is asked of the history otherwise: the gates may be forced, and
deadlines may be out of reach.

To register the key anew does not lift the pause either.  It removes the registration, which
never comes back.
-/
import FeedPoller.Proofs.Poll.Rhythm

namespace FeedPoller

theorem Registration.afterRun_explicitlyPaused (r : Registration) (run : Run) (time : DateTime)
    (failed : Bool) :
    (r.afterRun run time failed).explicitlyPaused = r.explicitlyPaused := by
  unfold Registration.afterRun
  split <;> rfl

namespace Coordinator

variable {c : Coordinator} {r : Registration} {d : Duration} {id : Nat}

/-- The registration with an id is paused by name, if it is there. -/
def Held (c : Coordinator) (id : Nat) : Prop :=
  ∀ r ∈ c.registry, r.id = id → r.explicitlyPaused = true

theorem Held.put (h : c.Held id) (hr : r.id = id → r.explicitlyPaused = true) :
    (c.put r).Held id := by
  intro q hq hid
  rcases mem_put.mp hq with ⟨hq, -⟩ | ⟨rfl, -⟩
  · exact h q hq hid
  · exact hr hid

theorem Held.withGates (h : c.Held id) (gates : Gates) : Held { c with gates } id := h

theorem Held.suspend (h : c.Held id) (hr : r.id = id → r.explicitlyPaused = true) :
    (c.suspend r).Held id :=
  Held.put (c := c.disarm r) (r := r.suspended) h hr

theorem Held.schedule (h : c.Held id) (hr : r.id = id → r.explicitlyPaused = true) :
    (c.schedule r d).Held id := by
  obtain ⟨q, _, _, ha, hflag, e⟩ := schedule_shape c r d
  rw [e]
  refine Held.put (c := c) (r := q) h fun hid => ?_
  rw [hflag]
  exact hr ((Registration.id_of_account ha).symm.trans hid)

theorem Held.resumeOne {jitter : Bool} (h : c.Held id)
    (hr : r.id = id → r.explicitlyPaused = true) : (resumeOne jitter c r).Held id := by
  obtain ⟨draws, e⟩ := c.resumeDelay_draws jitter
  rw [Coordinator.resumeOne, e]
  exact Held.schedule (c := { c with draws }) h hr

/-- Going through some registrations lifts no pause if no step does. -/
theorem Held.foldl {f : Coordinator → Registration → Coordinator} {rs : List Registration}
    (h : c.Held id)
    (others : ∀ c r q, q ∈ c.registry → q.id ≠ r.id → q ∈ (f c r).registry)
    (step : ∀ c r, Held c id → (r.id = id → r.explicitlyPaused = true) → (f c r).Held id)
    (hids : (rs.map (·.id)).Nodup) (hmem : ∀ r ∈ rs, r ∈ c.registry) : (rs.foldl f c).Held id :=
  foldl_induct (I := fun _ c => c.Held id) others
    (fun c r _ hr h => step c r h (h r hr)) rs c hids hmem h

theorem Held.suspendWhere (h : c.Held id) (ht : c.Tidy) (applies : Registration → Bool) :
    (c.suspendWhere applies).Held id :=
  h.foldl (fun _ _ _ => mem_suspend_of_ne) (fun _ _ h => h.suspend) (ht.filter_ids applies)
    fun _ hr => (List.mem_filter.mp hr).1

theorem Held.resumeWhere (h : c.Held id) (ht : c.Tidy) (applies : Registration → Bool)
    (jitter : Bool) : (c.resumeWhere applies jitter).Held id :=
  h.foldl (fun _ _ _ => mem_resumeOne_of_ne) (fun _ _ h => h.resumeOne) (ht.filter_ids _)
    fun _ hr => (List.mem_filter.mp hr).1

theorem Held.pause (h : c.Held id) (key : String) : (c.pause key).Held id := by
  unfold Coordinator.pause
  split
  · exact h
  · exact h.suspend fun _ => rfl

/-- A resume leaves a pause by name alone if it is for another key or finds a gate closed. -/
theorem Held.resume (h : c.Held id) {key : String} (jitter : Bool)
    (hother : ∀ r ∈ c.registry, r.id = id → r.key = key → r.gateClosed c.gates = true) :
    (c.resume key jitter).Held id := by
  unfold Coordinator.resume
  split
  · exact h
  · next r hf =>
    split
    · exact h
    · next hopen =>
      split
      · exact h
      · refine h.resumeOne (r := { r with explicitlyPaused := false }) fun hid => ?_
        obtain ⟨hr, hkey⟩ := find?_mem hf
        exact absurd (hother r hr hid hkey) hopen

theorem Held.refresh (h : c.Held id) (ht : c.Tidy) : c.refresh.1.Held id := by
  unfold Coordinator.refresh
  split
  · exact h
  · exact h.foldl (fun _ _ _ => mem_schedule_of_ne) (fun _ _ h => h.schedule) (ht.filter_ids _)
      fun _ hr => (List.mem_filter.mp hr).1

/-- A newcomer has an id of its own. -/
theorem Held.register (h : c.Held id) (ht : c.Tidy) (hknown : id < c.nextId) (o : PollOptions) :
    (c.register o).1.Held id := by
  obtain ⟨-, e⟩ | ⟨-, -, e⟩ := register_cases c o <;> rw [e]
  · exact h
  · have hnew : ((c.vacate o.key).newcomer o (c.awaitedFor o.key)).id ≠ id := by
      show (c.vacate o.key).nextId ≠ id
      rw [vacate_nextId]
      exact Nat.ne_of_gt hknown
    have hjoined : ((c.vacate o.key).join
        ((c.vacate o.key).newcomer o (c.awaitedFor o.key))).Held id := by
      intro q hq hid
      rcases List.mem_append.mp hq with hq | hq
      · exact h q (mem_vacate ht hq).1 hid
      · rw [List.mem_singleton.mp hq] at hid
        exact absurd hid hnew
    obtain ⟨-, e⟩ | ⟨-, e⟩ := append_cases (c.vacate o.key) o (c.awaitedFor o.key) <;> rw [e]
    · exact hjoined.put fun hid => absurd hid hnew
    · exact hjoined.schedule fun hid => absurd hid hnew

end Coordinator

namespace System

open Coordinator

variable {s : System} {r : Registration} {e : Event} {poll : Nat}

/-- An event that lifts the pause of a registration: a resume that finds no gate of it closed. -/
def Lifts (s : System) (r : Registration) : Event → Prop
  | .resume key _ => key = r.key ∧ r.gateClosed s.coordinator.gates = false
  | _ => False

instance (s : System) (r : Registration) : ∀ e, Decidable (s.Lifts r e)
  | .resume key _ => inferInstanceAs (Decidable (key = r.key ∧
      r.gateClosed s.coordinator.gates = false))
  | .register _ | .cleanup _ | .pause _ | .pauseHealthAware | .resumeHealthAware _
  | .pauseAuthenticated | .resumeAuthenticated | .refresh | .listen | .forceGates _ | .dispose
  | .release | .elapse _ | .wake _ | .fire _ | .finish _ _ => isFalse id

theorem held_call {f : Coordinator → Coordinator} (h : s.coordinator.Held poll)
    (hf : (f s.coordinator).Held poll) : (s.call f).coordinator.Held poll := by
  unfold System.call
  split
  · exact hf
  · exact h

/-- Whoever is registered is found under its id with its options, or not at all. -/
theorem Sound.honours (hs : s.Sound) (hr : r ∈ s.coordinator.registry) :
    s.Honours r.handle r.options where
  key := rfl
  issued := hs.tidy.fresh r hr
  options := fun q hq hid => by rw [hs.tidy.uniqueIds.eq hq hr hid]
  latest := fun q hq hkey =>
    Nat.le_of_eq (congrArg Registration.id (hs.tidy.key_unique hr hq hkey.symm))

/-- Every event but one leaves a pause by name in force. -/
theorem Sound.held_step (hs : s.Sound) (hh : s.Honours r.handle r.options)
    (h : s.coordinator.Held r.id) (he : ¬ s.Lifts r e) : (s.step e).coordinator.Held r.id := by
  have ht := hs.tidy
  cases e with
  | register o => exact held_call h (h.register ht hh.issued o)
  | cleanup handle =>
    refine held_call h ?_
    obtain ⟨-, e⟩ | ⟨p, -, -, e⟩ := cleanup_cases s.coordinator handle <;> rw [e]
    · exact h
    · exact fun q hq => h q (mem_remove.mp hq).1
  | pause key => exact held_call h (h.pause key)
  | resume key jitter =>
    refine held_call h (h.resume jitter fun q hq hid hkey => ?_)
    have hoptions : q.options = r.options := hh.options q hq hid
    have hsame : key = r.key := hkey.symm.trans (congrArg PollOptions.key hoptions)
    have hgate : q.gateClosed s.coordinator.gates = r.gateClosed s.coordinator.gates := by
      rw [Registration.gateClosed, hoptions, Registration.gateClosed]
    rw [hgate]
    exact Bool.not_eq_false _ ▸ fun hopen => he ⟨hsame, hopen⟩
  | pauseHealthAware => exact held_call h ((h.withGates _).suspendWhere (ht.withGates _) _)
  | resumeHealthAware jitter =>
    exact held_call h ((h.withGates _).resumeWhere (ht.withGates _) _ jitter)
  | pauseAuthenticated => exact held_call h ((h.withGates _).suspendWhere (ht.withGates _) _)
  | resumeAuthenticated =>
    exact held_call h ((h.withGates _).resumeWhere (ht.withGates _) _ false)
  | refresh => exact held_call h (h.refresh ht)
  | listen =>
    refine held_call h ?_
    unfold Coordinator.listen
    split <;> exact h
  | forceGates g => exact held_call h h
  | dispose =>
    refine held_call h ?_
    obtain ⟨-, e⟩ | ⟨-, -, hnil, -⟩ := dispose_cases ht
    · rw [e]
      exact h
    · intro q hq
      rw [hnil] at hq
      exact absurd hq List.not_mem_nil
  | release => exact fun q hq => absurd hq List.not_mem_nil
  | elapse d => exact h
  | wake n =>
    show (s.wake n).coordinator.Held r.id
    unfold System.wake
    split <;> exact h
  | fire n =>
    show (s.fire n).1.coordinator.Held r.id
    obtain e | e | ⟨-, -, t, -, -, -, q, hq, -, -, ⟨-, e⟩ | ⟨-, e⟩⟩ := hs.fire_cases n <;> rw [e]
    · exact h
    · exact h
    · exact Held.put (c := s.coordinator.disarm q) (r := q.skipped) h (h q hq)
    · exact Held.put (c := s.coordinator.disarm q) (r := q.begun) h (h q hq)
  | finish id failed =>
    show (s.finish id failed).coordinator.Held r.id
    obtain ⟨-, e⟩ | ⟨run, -, -, ⟨-, e⟩ | ⟨q, hq, -, e⟩⟩ := hs.finish_cases id failed <;> rw [e]
    · exact h
    · exact h
    · obtain ⟨p, _, _, ha, hflag, e⟩ :=
        settle_shape s.coordinator (q.afterRun run s.coordinator.clock.wall failed)
      show (s.coordinator.settle _).Held r.id
      rw [e]
      have hid := (Registration.id_of_account ha).trans (q.afterRun_sameTimer run _ failed).id
      refine Held.put (c := s.coordinator) (r := p) h fun hp => ?_
      rw [hflag, Registration.afterRun_explicitlyPaused]
      exact h q hq (hid.symm.trans hp)

/-- No run begins of a registration that is paused by name. -/
theorem Sound.not_begun (hs : s.Sound) (h : s.coordinator.Held poll) {b : Beginning}
    (hb : s.begun? e = some b) : b.run.id ≠ poll := by
  intro hid
  obtain ⟨r, t, -, -, hright⟩ := hs.begun_cases hb
  have hheld := h r hright.registered (hright.id.trans hid)
  exact absurd (hright.unpaused.symm.trans hheld) (by simp)

theorem Sound.held_run (hs : s.Sound) (hh : s.Honours r.handle r.options)
    (h : s.coordinator.Held r.id) {events : List Event}
    (hall : Lawful (fun s e => ¬ s.Lifts r e) s events) :
    s.beginningsOf r.id events = [] ∧ (s.run events).coordinator.Held r.id := by
  induction events generalizing s with
  | nil => exact ⟨rfl, h⟩
  | cons e rest ih =>
    obtain ⟨hnone, hheld⟩ := ih (hs.step e) (hh.step hs e) (hs.held_step hh h hall.1) hall.2
    rw [beginningsOf_cons_of_none fun b => hs.not_begun h]
    exact ⟨hnone, hheld⟩

/-- A pause by name reaches the registration of the key. -/
theorem Sound.held_pause (hs : s.Sound) (hr : r ∈ s.coordinator.registry) :
    (s.step (.pause r.key)).coordinator.Held r.id := by
  show (s.call (·.pause r.key)).coordinator.Held r.id
  rw [System.call, if_pos (hs.alive hr)]
  show (s.coordinator.pause r.key).Held r.id
  rw [Coordinator.pause, find?_of_mem hs.tidy.toOrderly hr]
  intro q hq hid
  rcases mem_put.mp hq with ⟨-, hne⟩ | ⟨rfl, -⟩
  · exact absurd hid hne
  · rfl

/--
**A pause by name is sticky.**  Whatever has happened before and whatever comes after it, until a
resume of the key finds no gate of the poll closed no run of the registration begins, and as long
as it is registered it says that it is paused by name.
-/
theorem pause_sticky (config : CoordinatorConfig) (clock : Clock) (draws : Draws)
    {before after : List Event}
    (hr : r ∈ ((initial config clock draws).run before).coordinator.registry)
    (hafter : Lawful (fun s e => ¬ s.Lifts r e)
      (((initial config clock draws).run before).step (.pause r.key)) after) :
    let s := ((initial config clock draws).run before).step (.pause r.key)
    s.beginningsOf r.id after = [] ∧
    ∀ q ∈ (s.run after).coordinator.registry, q.id = r.id → q.explicitlyPaused = true := by
  intro s
  have hs : ((initial config clock draws).run before).Sound := sound_run config clock draws before
  exact (hs.step _).held_run ((hs.honours hr).step hs _) (hs.held_pause hr) hafter

/-- The first run of a poll begins. -/
def daybreak : List Event := [.register { key := "feed", interval := .ofSeconds 60 }, .fire 0]

/-- It is paused during that run and resumed in vain, while everybody else is resumed. -/
def slumber : List Event :=
  [.register { key := "inbox", interval := .ofSeconds 5 }, .forceGates ⟨true, false⟩,
    .resume "feed" true, .refresh, .finish 0 true, .resumeHealthAware true, .pause "inbox",
    .resume "inbox" false, .refresh, .elapse (.ofSeconds 60), .fire 3]

theorem pause_sticky_slumber :
    ∃ r ∈ ((initial {} default ⟨[7], []⟩).run daybreak).coordinator.registry,
      r.key = "feed" ∧ r.inFlight = true ∧
      let s := ((initial {} default ⟨[7], []⟩).run daybreak).step (.pause r.key)
      Lawful (fun s e => ¬ s.Lifts r e) s slumber ∧
      s.beginningsOf r.id slumber = [] ∧
      ∀ q ∈ (s.run slumber).coordinator.registry, q.id = r.id → q.explicitlyPaused = true := by
  obtain ⟨r, hr, hkey, hflight, hafter⟩ :
      ∃ r ∈ ((initial {} default ⟨[7], []⟩).run daybreak).coordinator.registry,
        r.key = "feed" ∧ r.inFlight = true ∧
        Lawful (fun s e => ¬ s.Lifts r e)
          (((initial {} default ⟨[7], []⟩).run daybreak).step (.pause r.key)) slumber := by
    decide +kernel
  exact ⟨r, hr, hkey, hflight, hafter, pause_sticky {} default ⟨[7], []⟩ hr hafter⟩

end System

end FeedPoller
