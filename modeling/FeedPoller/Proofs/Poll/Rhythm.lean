/-
A poll that nobody interferes with.

While nobody calls the coordinator, time passes, timers go off and runs end, and that is all.
A registration that may run then goes on in a rhythm: its timer begins a run at the deadline,
and when the run has ended there is a timer that is due an interval later.
`Sound.unasked_cases` says once what an event can do to such a registration; all else in
this file is read off from it, along a history.

The interval counts from the end of the run only if nothing was asked for during the run.
`Prompt` is the reason why it is so at first: a request is kept during a run, and never
otherwise.
-/
import FeedPoller.Proofs.Poll.Backlog
import FeedPoller.Proofs.Settings.Deadlines

namespace FeedPoller

/-- An event that nobody asks for. -/
def Event.Unasked : Event → Prop
  | .elapse _ | .wake _ | .fire _ | .finish _ _ => True
  | _ => False

instance : ∀ e : Event, Decidable e.Unasked
  | .elapse _ | .wake _ | .fire _ | .finish _ _ => isTrue trivial
  | .register _ | .cleanup _ | .pause _ | .resume _ _ | .pauseHealthAware | .resumeHealthAware _
  | .pauseAuthenticated | .resumeAuthenticated | .refresh | .listen | .forceGates _ | .dispose
  | .release => isFalse id

theorem Event.Unasked.aside {e : Event} (h : e.Unasked) : e.Aside := by
  cases e with
  | elapse | wake | fire | finish => exact trivial
  | _ => exact h.elim

/-- The beginning of a run: when it was, the timer it is due to, and the run. -/
structure Beginning where
  time : Instant
  timer : Nat
  run : Run
deriving DecidableEq, Repr

theorem Instant.after_lt {t u : Instant} {d : Duration} (h : t.after? d = some u)
    (hd : d.isZero = false) : t < u := by
  have hpos : d.nanos ≠ 0 := by simpa [Duration.isZero] using hd
  unfold Instant.after? at h
  split at h
  · rw [← Option.some.inj h]
    show t.nanos < t.nanos + d.nanos
    omega
  · exact absurd h (by simp)

theorem Registration.afterRun_isPaused (r : Registration) (run : Run) (time : DateTime)
    (failed : Bool) (g : Gates) : (r.afterRun run time failed).isPaused g = r.isPaused g := by
  unfold Registration.afterRun
  split <;> rfl

/-! ### Requests that are kept -/

namespace Coordinator

variable {c c' : Coordinator} {r q : Registration} {d : Duration}

/-- A request for a run is kept only while another one goes on. -/
def Prompt (c : Coordinator) : Prop :=
  ∀ r ∈ c.registry, r.inFlight = false → r.pendingDelay = none

theorem Prompt.put (h : c.Prompt) (hr : r.inFlight = false → r.pendingDelay = none) :
    (c.put r).Prompt := by
  intro q hq
  rcases mem_put.mp hq with ⟨hq, -⟩ | ⟨rfl, -⟩
  · exact h q hq
  · exact hr

theorem Prompt.schedule (h : c.Prompt) (hr : r.inFlight = false → r.pendingDelay = none) :
    (c.schedule r d).Prompt := by
  obtain ⟨hf, e⟩ | ⟨-, deadline, -, e⟩ | ⟨-, -, e⟩ := schedule_cases c r d <;> rw [e]
  · exact h.put fun hidle => absurd (hf.symm.trans hidle) (by simp)
  · exact Prompt.put (c := c.disarm r) h hr
  · exact Prompt.put (c := c.disarm r) h hr

theorem Move.prompt (hm : Move c c') (h : c.Prompt) : c'.Prompt := by
  cases hm with
  | @suspend r q hr hq => exact Prompt.put (c := c.disarm q) h fun _ => rfl
  | schedule hr hq =>
    refine h.schedule fun hidle => ?_
    rw [hq.pending]
    exact h _ hr (hq.inFlight ▸ hidle)
  | draw | gates | listen => exact h

theorem Moves.prompt (hm : Moves c c') (h : c.Prompt) : c'.Prompt := by
  induction hm with
  | refl => exact h
  | tail _ hmove ih => exact hmove.prompt ih

theorem Prompt.settle (h : c.Prompt) (hq : c.disposed = false) : (c.settle q).Prompt := by
  obtain ⟨hd, -⟩ | ⟨-, -, e⟩ | ⟨-, -, e⟩ := settle_cases c q
  · exact absurd (hq.symm.trans hd) (by simp)
  · rw [e]
    exact h.put fun _ => rfl
  · rw [e]
    exact h.schedule fun _ => rfl

/-- After a run during which nothing was asked for, the next one is asked for by its interval. -/
theorem settle_unasked (hd : c.disposed = false) (hp : q.isPaused c.gates = false)
    (hkept : q.pendingDelay = none) : c.settle q = c.schedule q q.options.interval := by
  have hsame : { q with pendingDelay := none } = q := by rw [← hkept]
  obtain ⟨hd', -⟩ | ⟨-, hp', -⟩ | ⟨-, -, e⟩ := settle_cases c q
  · exact absurd (hd.symm.trans hd') (by simp)
  · exact absurd (hp.symm.trans hp') (by simp)
  · rw [e, hsame, hkept, Option.getD_none]

end Coordinator

namespace System

open Coordinator

variable {s : System} {r : Registration} {t u : Timer} {e : Event} {n : Nat} {limit : Instant}

theorem Sound.prompt_step (hs : s.Sound) (e : Event) (h : s.coordinator.Prompt) :
    (s.step e).coordinator.Prompt := by
  have ho := hs.outcome e
  generalize s.step e = s' at ho
  cases ho with
  | nothing | elapse | wake | late | unnoticed => exact h
  | moves hm => exact hm.prompt h
  | @register o =>
    have hvacated : (s.coordinator.vacate o.key).Prompt :=
      fun q hq => h q (mem_vacate hs.tidy hq).1
    have hjoined : ((s.coordinator.vacate o.key).join
        ((s.coordinator.vacate o.key).newcomer o (s.coordinator.awaitedFor o.key))).Prompt := by
      intro q hq
      rcases List.mem_append.mp hq with hq | hq
      · exact hvacated q hq
      · rw [List.mem_singleton.mp hq]
        exact fun _ => rfl
    obtain ⟨-, e⟩ | ⟨-, e⟩ := append_cases (s.coordinator.vacate o.key) o
      (s.coordinator.awaitedFor o.key)
    · show ((s.coordinator.vacate o.key).append o (s.coordinator.awaitedFor o.key)).1.Prompt
      rw [e]
      exact hjoined.put fun _ => rfl
    · show ((s.coordinator.vacate o.key).append o (s.coordinator.awaitedFor o.key)).1.Prompt
      rw [e]
      exact hjoined.schedule fun _ => rfl
  | cleanup => exact fun q hq => h q (mem_remove.mp hq).1
  | dispose =>
    obtain ⟨-, e⟩ | ⟨-, -, hnil, -⟩ := dispose_cases hs.tidy
    · show s.coordinator.dispose.Prompt
      rwa [e]
    · intro q hq
      rw [hnil] at hq
      exact absurd hq List.not_mem_nil
  | release => exact fun q hq => absurd hq List.not_mem_nil
  | @skip t r _ hr _ hrt =>
    exact Prompt.put (c := s.coordinator.disarm r) h fun hidle => h r hr hidle
  | @begin t r =>
    exact Prompt.put (c := s.coordinator.disarm r) h fun hidle => absurd hidle (by
      simp [Registration.begun])
  | settle _ hr => exact h.settle (hs.undisposed hr)

/-- Options that are accepted, and no request that is kept in vain, whatever has happened. -/
theorem faultless_prompt_run (config : CoordinatorConfig) (clock : Clock) (draws : Draws)
    (events : List Event) :
    ((initial config clock draws).run events).coordinator.Faultless ∧
    ((initial config clock draws).run events).coordinator.Prompt := by
  have hfirst := sound_initial config clock draws
  refine hfirst.invariant
    (I := fun s => s.coordinator.Faultless ∧ s.coordinator.Prompt)
    (fun hs e h => ⟨hs.faultless_step h.1 e, hs.prompt_step e h.2⟩) ⟨?_, ?_⟩ events
  · exact fun r hr => absurd hr List.not_mem_nil
  · exact fun r hr => absurd hr List.not_mem_nil

/-! ### Beginnings -/

/-- The run that an event makes begin. -/
def begun? (s : System) : Event → Option Beginning
  | .fire n => (s.fire n).2.map fun run => ⟨s.now, n, run⟩
  | _ => none

/-- The beginnings of runs in a history. -/
def beginnings : System → List Event → List Beginning
  | _, [] => []
  | s, e :: rest => (s.begun? e).toList ++ (s.step e).beginnings rest

/-- The beginnings of runs of one registration. -/
def beginningsOf (s : System) (id : Nat) (events : List Event) : List Beginning :=
  (s.beginnings events).filter (·.run.id == id)

theorem begun_started (s : System) (e : Event) : (s.begun? e).map (·.timer) = s.started e := by
  cases e with
  | fire n => cases h : (s.fire n).2 <;> simp [begun?, started, h]
  | _ => rfl

/-- The timers that beginnings are due to. -/
theorem beginnings_timers (s : System) (events : List Event) :
    (s.beginnings events).map (·.timer) = s.starts events := by
  induction events generalizing s with
  | nil => rfl
  | cons e rest ih =>
    rw [beginnings, starts, List.map_append, ih, ← begun_started]
    cases s.begun? e <;> rfl

/-- What begins is due to a timer of the registration that it is a run of. -/
theorem Sound.begun_cases (hs : s.Sound) {b : Beginning} (hb : s.begun? e = some b) :
    ∃ r t, e = .fire b.timer ∧ b.time = s.now ∧ s.Rightful b.timer b.run r t := by
  cases e with
  | fire n =>
    obtain ⟨run, hrun, rfl⟩ := Option.map_eq_some_iff.mp hb
    obtain ⟨r, t, hright⟩ := hs.rightful hrun
    exact ⟨r, t, rfl, rfl, hright⟩
  | _ => exact absurd hb (by simp [begun?])

theorem beginningsOf_cons (s : System) (id : Nat) (e : Event) (rest : List Event) :
    s.beginningsOf id (e :: rest) =
      (s.begun? e).toList.filter (·.run.id == id) ++ (s.step e).beginningsOf id rest := by
  rw [beginningsOf, beginnings, List.filter_append]
  rfl

/-- An event that begins no run of a registration adds nothing to its beginnings. -/
theorem beginningsOf_cons_of_none {id : Nat} (h : ∀ b, s.begun? e = some b → b.run.id ≠ id)
    (rest : List Event) : s.beginningsOf id (e :: rest) = (s.step e).beginningsOf id rest := by
  rw [beginningsOf_cons]
  cases hb : s.begun? e with
  | none => rfl
  | some b => simp [h b hb]

theorem beginningsOf_cons_of_some {b : Beginning} (h : s.begun? e = some b)
    (rest : List Event) :
    s.beginningsOf b.run.id (e :: rest) = b :: (s.step e).beginningsOf b.run.id rest := by
  rw [beginningsOf_cons, h]
  simp

/-! ### Timers that are left alone -/

/-- As long as a registration is left alone it gets no timer. -/
theorem Sound.timer_of_kept (hs : s.Sound) (hr : r ∈ s.coordinator.registry)
    (hr' : r ∈ (s.step e).coordinator.registry) (ht : t ∈ (s.step e).coordinator.timers)
    (hid : t.poll = r.id) : t ∈ s.coordinator.timers := by
  have hremembers := ((hs.step e).tidy.remembered ht hr' hid.symm).1
  obtain ⟨u, hu, hnumber, -⟩ := hs.tidy.own r hr _ hremembers
  have hold : t.number < s.coordinator.armed := hnumber ▸ hs.tidy.numbered u hu
  rcases ((hs.outcome e).timersFrom hs).timers t ht with ht | ⟨hnew, -⟩
  · exact ht
  · omega

/-- As long as a registration is left alone it keeps its timer. -/
theorem Sound.timedBy_of_kept (hs : s.Sound) (hr : r ∈ s.coordinator.registry)
    (ht : s.TimedBy r t) (hr' : r ∈ (s.step e).coordinator.registry) :
    (s.step e).TimedBy r t := by
  obtain ⟨u, hu⟩ := (hs.step e).timed hr' (by simp [ht.remembered])
  have hbefore : u ∈ s.coordinator.timers := hs.timer_of_kept hr hr' hu.mem hu.poll_eq
  have hnumber : u.number = t.number :=
    Option.some.inj (hu.remembered.symm.trans ht.remembered)
  rwa [hs.tidy.number_unique hbefore ht.mem hnumber] at hu

/-! ### A registration that may run -/

/-- A registration that may run, and of which nothing was asked during a run. -/
structure Free (s : System) (r : Registration) : Prop where
  mem : r ∈ s.coordinator.registry
  unpaused : r.isPaused s.coordinator.gates = false
  kept : r.pendingDelay = none

/-- After a run the registration goes on, with a timer an interval later if there is such a time. -/
structure Renewed (s s' : System) (r r' : Registration) : Prop where
  free : s'.Free r'
  id : r'.id = r.id
  options : r'.options = r.options
  idle : r'.inFlight = false
  timers : ∀ t ∈ s'.coordinator.timers, t.poll = r.id →
    s.now.after? r.options.interval = some t.deadline
  timed : ∀ due, s.now.after? r.options.interval = some due →
    ∃ t, s'.TimedBy r' t ∧ t.deadline = due

/-- Where no timer is armed for a registration, one that is armed for it is its only one. -/
theorem renewed_schedule {c : Coordinator} {q : Registration} {d : Duration}
    (hf : q.inFlight = false) (hmem : r ∈ c.registry) (hid : q.id = r.id)
    (hnone : ∀ t ∈ c.timers, t.poll ≠ r.id) :
    ∃ q' ∈ (c.schedule q d).registry, q'.account = q.account ∧
      q'.explicitlyPaused = q.explicitlyPaused ∧ q'.pendingDelay = q.pendingDelay ∧
      q'.state = .scheduled ∧
      (∀ t ∈ (c.schedule q d).timers, t.poll = r.id → c.clock.now.after? d = some t.deadline) ∧
      ∀ due, c.clock.now.after? d = some due →
        ∃ t ∈ (c.schedule q d).timers, t.poll = r.id ∧ t.deadline = due := by
  obtain ⟨hf', -⟩ | ⟨-, deadline, hdeadline, e⟩ | ⟨-, hdeadline, e⟩ := schedule_cases c q d
  · exact absurd (hf.symm.trans hf') (by simp)
  · rw [e]
    refine ⟨{ q.scheduled with timer := some c.armed },
      mem_put_self (c := c.disarm q) (r := r) hmem hid, rfl, rfl, rfl, rfl, fun t ht hpoll => ?_,
      fun due hdue => ?_⟩
    · rcases List.mem_append.mp ht with ht | ht
      · exact absurd hpoll (hnone t (mem_disarm.mp ht).1)
      · rw [List.mem_singleton.mp ht]
        exact hdeadline
    · rw [hdeadline] at hdue
      exact ⟨_, List.mem_append_right _ (List.mem_singleton.mpr rfl), hid, Option.some.inj hdue⟩
  · rw [e]
    refine ⟨q.scheduled, mem_put_self (c := c.disarm q) (r := r) hmem hid, rfl, rfl, rfl, rfl,
      fun t ht hpoll => ?_, fun due hdue => ?_⟩
    · exact absurd hpoll (hnone t (mem_disarm.mp ht).1)
    · exact absurd (hdeadline.symm.trans hdue) (by simp)

/-- The end of a run is brought to the registration that waits for it. -/
theorem Sound.finish_awaited (hs : s.Sound) (hr : r ∈ s.coordinator.registry) {run : Run}
    (hrun : run ∈ s.runs) (hw : r.awaitedRun = some run.id) (failed : Bool) :
    (s.finish run.id failed).coordinator =
      s.coordinator.settle (r.afterRun run s.coordinator.clock.wall failed) := by
  obtain ⟨hnone, -⟩ | ⟨run', -, hid, ⟨hno, -⟩ | ⟨q, hq, hw', e⟩⟩ := hs.finish_cases run.id failed
  · exact absurd rfl (hnone run hrun)
  · exact absurd (hid ▸ hw) (hno r hr)
  · have hname := (Registration.awaitedRun_eq_some.mp hw).2
    have hname' := (Registration.awaitedRun_eq_some.mp hw').2
    obtain rfl := hs.books.runId_unique hq hr (hname'.trans (hid.trans hname.symm))
    rw [e, Registration.afterRun, hid]
    rfl

/-- The end of the run that a registration waits for. -/
theorem Free.ended (h : s.Free r) (hs : s.Sound) {run : Run} (hrun : run ∈ s.runs)
    (hw : r.awaitedRun = some run.id) (failed : Bool) :
    ∃ r', Renewed s (s.step (.finish run.id failed)) r r' := by
  have hs' := hs.step (.finish run.id failed)
  have hflight := (Registration.awaitedRun_eq_some.mp hw).1
  have hnone := (hs.untimed h.mem (hs.tidy.timer_none h.mem hflight)).armed
  -- After the run the registration is as free as before, and idle.
  obtain ⟨p, hp⟩ : ∃ p, p = r.afterRun run s.coordinator.clock.wall failed := ⟨_, rfl⟩
  obtain ⟨hoptions, hasked, hidle⟩ := r.afterRun_plan run s.coordinator.clock.wall failed
  have hid := (r.afterRun_sameTimer run s.coordinator.clock.wall failed).id
  have hpaused := (r.afterRun_isPaused run s.coordinator.clock.wall failed
    s.coordinator.gates).trans h.unpaused
  rw [← hp] at hoptions hasked hidle hid hpaused
  have hafter : (s.step (.finish run.id failed)).coordinator =
      s.coordinator.schedule p r.options.interval := by
    rw [← hoptions, ← settle_unasked (hs.undisposed h.mem) hpaused (hasked.trans h.kept), hp]
    exact hs.finish_awaited h.mem hrun hw failed
  obtain ⟨q, hq, ha, hexplicit, hkept, -, hdeadlines, hdues⟩ :=
    renewed_schedule (d := r.options.interval) hidle h.mem hid hnone
  have hqoptions : q.options = p.options := Registration.eq_of_account (·.options) (fun _ => rfl) ha
  have hqid : q.id = r.id := (Registration.id_of_account ha).trans hid
  rw [← hafter] at hq hdeadlines hdues
  refine ⟨q, ⟨hq, ?_, hkept.trans (hasked.trans h.kept)⟩, hqid, hqoptions.trans hoptions, ?_,
    hdeadlines, fun due hdue => ?_⟩
  · rw [hafter, schedule_gates, Registration.isPaused, Registration.gateClosed, hexplicit,
      hqoptions]
    exact hpaused
  · exact (Registration.eq_of_account (·.inFlight) (fun _ => rfl) ha).trans hidle
  · obtain ⟨t, ht, hpoll, hdeadline⟩ := hdues due hdue
    exact ⟨t, hs'.timedBy ht hq (hqid.trans hpoll.symm), hdeadline⟩

/-- The turn of a timer is nothing to a registration, or it begins a run of it. -/
theorem Free.fire_cases (h : s.Free r) (hs : s.Sound) (n : Nat) :
    (r ∈ (s.fire n).1.coordinator.registry ∧ ∀ run, (s.fire n).2 = some run → run.id ≠ r.id) ∨
    ∃ t, s.TimedBy r t ∧ t.number = n ∧ t.deadline ≤ s.now ∧ (s.fire n).2 = some ⟨r.id, r.key⟩ ∧
      r.begun ∈ (s.fire n).1.coordinator.registry := by
  obtain e | e | ⟨-, -, t, ht, hn, hdue, q, hq, hid, -, ⟨hp, e⟩ | ⟨hp, e⟩⟩ := hs.fire_cases n <;>
    rw [e]
  · exact Or.inl ⟨h.mem, by simp⟩
  · exact Or.inl ⟨h.mem, by simp⟩
  · have hne : r.id ≠ q.id := by
      intro hrq
      rw [hs.tidy.uniqueIds.eq hq h.mem hrq.symm, h.unpaused] at hp
      exact absurd hp (by simp)
    exact Or.inl ⟨mem_put_of_ne (c := s.coordinator.disarm q) h.mem hne, by simp⟩
  · by_cases hrq : r.id = q.id
    · obtain rfl := hs.tidy.uniqueIds.eq h.mem hq hrq
      exact Or.inr ⟨t, hs.timedBy ht hq hid, hn, hdue, rfl,
        mem_put_self (c := s.coordinator.disarm r) hq rfl⟩
    · refine Or.inl ⟨mem_put_of_ne (c := s.coordinator.disarm q) h.mem hrq, fun run hrun => ?_⟩
      rw [← Option.some.inj hrun]
      exact Ne.symm hrq

/-- The end of a run is nothing to a registration, unless it waits for it. -/
theorem Free.finish_cases (h : s.Free r) (hs : s.Sound) (id : Nat) (failed : Bool) :
    r ∈ (s.finish id failed).coordinator.registry ∨
    ∃ run ∈ s.runs, run.id = id ∧ r.awaitedRun = some run.id := by
  obtain ⟨-, e⟩ | ⟨run, hrun, hid, ⟨-, e⟩ | ⟨q, hq, hw, e⟩⟩ := hs.finish_cases id failed
  · rw [e]; exact Or.inl h.mem
  · rw [e]; exact Or.inl h.mem
  · by_cases hrq : r.id = q.id
    · obtain rfl := hs.tidy.uniqueIds.eq h.mem hq hrq
      exact Or.inr ⟨run, hrun, hid, hw⟩
    · obtain ⟨q', _, _, ha, -, esettle⟩ :=
        settle_shape s.coordinator (q.afterRun run s.coordinator.clock.wall failed)
      have hid' : q'.id = q.id :=
        (Registration.id_of_account ha).trans (q.afterRun_sameTimer run _ failed).id
      rw [e]
      show r ∈ (s.coordinator.settle _).registry ∨ _
      rw [esettle]
      exact Or.inl (mem_put_of_ne (c := s.coordinator) h.mem (by rwa [hid']))

/--
What an unasked event can do to a registration that may run: nothing, or make its timer begin a
run of it, or bring it the end of the run that it waits for.
-/
theorem Free.unasked_cases (h : s.Free r) (hs : s.Sound) (he : e.Unasked) :
    ((s.step e).Free r ∧ ∀ b, s.begun? e = some b → b.run.id ≠ r.id) ∨
    (∃ t, s.TimedBy r t ∧ t.deadline ≤ s.now ∧
      s.begun? e = some ⟨s.now, t.number, ⟨r.id, r.key⟩⟩ ∧ (s.step e).Free r.begun) ∨
    (r.inFlight = true ∧ s.begun? e = none ∧ ∃ r', Renewed s (s.step e) r r') := by
  have hgates := s.step_gates he.aside
  have hunpaused : r.isPaused (s.step e).coordinator.gates = false := hgates.symm ▸ h.unpaused
  cases e with
  | elapse d => exact Or.inl ⟨⟨h.mem, hunpaused, h.kept⟩, by simp [begun?]⟩
  | wake n =>
    refine Or.inl ⟨⟨?_, hunpaused, h.kept⟩, by simp [begun?]⟩
    show r ∈ (s.wake n).coordinator.registry
    unfold System.wake
    split <;> exact h.mem
  | fire n =>
    have hbegun : s.begun? (.fire n) = (s.fire n).2.map fun run => ⟨s.now, n, run⟩ := rfl
    obtain ⟨hmem, hno⟩ | ⟨t, ht, rfl, hdue, hrun, hmem⟩ := h.fire_cases hs n
    · refine Or.inl ⟨⟨hmem, hunpaused, h.kept⟩, fun b hb => ?_⟩
      obtain ⟨run, hrun, rfl⟩ := Option.map_eq_some_iff.mp (hbegun ▸ hb)
      exact hno run hrun
    · rw [hbegun, hrun]
      exact Or.inr (Or.inl ⟨t, ht, hdue, rfl, hmem, hunpaused, h.kept⟩)
  | finish id failed =>
    obtain hmem | ⟨run, hrun, rfl, hw⟩ := h.finish_cases hs id failed
    · exact Or.inl ⟨⟨hmem, hunpaused, h.kept⟩, by simp [begun?]⟩
    · exact Or.inr (Or.inr ⟨(Registration.awaitedRun_eq_some.mp hw).1, rfl,
        h.ended hs hrun hw failed⟩)
  | _ => exact he.elim

/-! ### Along a history -/

/--
A registration that may run, but begins no run up to a point in time: its timers are due later,
and if it waits for the end of a run the point has been reached, so what comes after the run does
not matter.
-/
structure Rests (s : System) (r : Registration) (limit : Instant) : Prop where
  free : s.Free r
  far : ∀ t ∈ s.coordinator.timers, t.poll = r.id → limit < t.deadline
  busy : r.inFlight = true → limit ≤ s.now

theorem Sound.now_le_step (hs : s.Sound) (e : Event) : s.now ≤ (s.step e).now :=
  Settings.now_le_run s hs [e]

/-- A registration that rests begins no run, and rests on. -/
theorem Rests.step (h : s.Rests r limit) (hs : s.Sound) (hf : s.coordinator.Faultless)
    (he : e.Unasked) (hnow : s.now ≤ limit) :
    (∃ r', r'.id = r.id ∧ (s.step e).Rests r' limit) ∧
      ∀ b, s.begun? e = some b → b.run.id ≠ r.id := by
  obtain ⟨hfree, hnone⟩ | ⟨t, ht, hdue, -⟩ | ⟨hflight, hbegun, r', hr'⟩ :=
    h.free.unasked_cases hs he
  · refine ⟨⟨r, rfl, hfree, fun t ht hpoll => ?_, fun hflight => ?_⟩, hnone⟩
    · exact h.far t (hs.timer_of_kept h.free.mem hfree.mem ht hpoll) hpoll
    · exact Nat.le_trans (h.busy hflight) (hs.now_le_step e)
  · have hlimit : limit.nanos < t.deadline.nanos := h.far t ht.mem ht.poll_eq
    exact absurd (Nat.le_trans hdue hnow) (Nat.not_le_of_lt hlimit)
  · refine ⟨⟨r', hr'.id, hr'.free, fun t ht hpoll => ?_, fun hflight' => ?_⟩, by simp [hbegun]⟩
    · have hlater := hr'.timers t ht (hpoll.trans hr'.id)
      have hinterval := PollOptions.interval_of_faultless (hf r h.free.mem)
      exact Nat.lt_of_le_of_lt (h.busy hflight) (Instant.after_lt hlater hinterval)
    · exact absurd (hr'.idle.symm.trans hflight') (by simp)

/-- A registration that rests begins no run before the time has come. -/
theorem Rests.none (h : s.Rests r limit) (hs : s.Sound) (hf : s.coordinator.Faultless)
    {rest : List Event} (hrest : ∀ e ∈ rest, e.Unasked) (hend : (s.run rest).now ≤ limit) :
    s.beginningsOf r.id rest = [] := by
  induction rest generalizing s r with
  | nil => rfl
  | cons e rest ih =>
    have hnow : s.now ≤ limit := Nat.le_trans (Settings.now_le_run s hs (e :: rest)) hend
    obtain ⟨⟨r', hid, hr'⟩, hbegun⟩ := h.step hs hf (hrest e (by simp)) hnow
    rw [beginningsOf_cons_of_none hbegun, ← hid]
    exact ih hr' (hs.step e) (hs.faultless_step hf e) (fun e he => hrest e (by simp [he])) hend

/-- A registration whose timer begins the next run of it. -/
structure Ready (s : System) (r : Registration) (t : Timer) : Prop where
  free : s.Free r
  timed : s.TimedBy r t

theorem Ready.idle (h : s.Ready r t) (hs : s.Sound) : r.inFlight = false :=
  hs.tidy.idle r h.free.mem (by simp [h.timed.remembered])

/-- Before the timer is due there is no run. -/
theorem Ready.rests (h : s.Ready r t) (hs : s.Sound) (hlimit : limit < t.deadline) :
    s.Rests r limit where
  free := h.free
  far := by
    intro u hu hpoll
    have hremembers := (hs.tidy.remembered hu h.free.mem hpoll.symm).1
    have hnumber : t.number = u.number :=
      Option.some.inj (h.timed.remembered.symm.trans hremembers)
    rwa [← hs.tidy.number_unique h.timed.mem hu hnumber]
  busy := fun hflight => absurd ((h.idle hs).symm.trans hflight) (by simp)

/-- Where a run goes on that nothing was asked for during, no other begins at once. -/
theorem Free.rests_of_inFlight (h : s.Free r) (hs : s.Sound) (hflight : r.inFlight = true) :
    s.Rests r s.now where
  free := h
  far := by
    intro t ht hpoll
    exact absurd hpoll ((hs.untimed h.mem (hs.tidy.timer_none h.mem hflight)).armed t ht)
  busy := fun _ => Nat.le_refl _

/-- When all that is due at the deadline has had its turn, the timer has begun one run. -/
theorem Ready.once (h : s.Ready r t) (hs : s.Sound) (hf : s.coordinator.Faultless)
    {rest : List Event} (hrest : ∀ e ∈ rest, e.Unasked) (hend : (s.run rest).now = t.deadline)
    (hsettled : (s.run rest).dueTimers = []) :
    s.beginningsOf r.id rest = [⟨t.deadline, t.number, ⟨r.id, r.key⟩⟩] := by
  induction rest generalizing s with
  | nil =>
    have hdue : t ∈ s.dueTimers :=
      List.mem_filter.mpr ⟨h.timed.mem, decide_eq_true (Nat.le_of_eq (by rw [← hend]; rfl))⟩
    rw [show s.dueTimers = [] from hsettled] at hdue
    exact absurd hdue List.not_mem_nil
  | cons e rest ih =>
    have he := hrest e (by simp)
    have hrest' : ∀ e ∈ rest, e.Unasked := fun e he => hrest e (by simp [he])
    have hs' := hs.step e
    have hf' := hs.faultless_step hf e
    have hlater : (s.step e).now ≤ t.deadline := hend ▸ Settings.now_le_run _ hs' rest
    obtain ⟨hfree, hnone⟩ | ⟨u, hu, hdue, hbegun, hfree⟩ | ⟨hflight, -, -⟩ :=
      h.free.unasked_cases hs he
    · rw [beginningsOf_cons_of_none hnone]
      exact ih ⟨hfree, hs.timedBy_of_kept h.free.mem h.timed hfree.mem⟩ hs' hf' hrest' hend hsettled
    · have hnumber : u.number = t.number :=
        Option.some.inj (hu.remembered.symm.trans h.timed.remembered)
      obtain rfl := hs.tidy.number_unique hu.mem h.timed.mem hnumber
      -- The run has begun in time, so the clock stands still from now on.
      have hnow : s.now = u.deadline :=
        congrArg Instant.mk (Nat.le_antisymm (Nat.le_trans (hs.now_le_step e) hlater) hdue)
      have hstill : (s.run (e :: rest)).now ≤ (s.step e).now := by
        rw [hend, ← hnow]
        exact hs.now_le_step e
      have hquiet := (hfree.rests_of_inFlight hs' rfl).none hs' hf' hrest' hstill
      rw [beginningsOf_cons_of_some hbegun, hnow]
      exact congrArg (_ :: ·) hquiet
    · exact absurd ((h.idle hs).symm.trans hflight) (by simp)

/-- The next run of a registration begins when it is due, unless something is asked for before. -/
structure BeginsNext (s : System) (run : Run) (due? : Option Instant) : Prop where
  before : ∀ rest : List Event, (∀ e ∈ rest, e.Unasked) →
    (∀ due, due? = some due → (s.run rest).now < due) → s.beginningsOf run.id rest = []
  /-- When all that is due then has had its turn, there has been one run. -/
  once : ∀ rest : List Event, (∀ e ∈ rest, e.Unasked) → ∀ due, due? = some due →
    (s.run rest).now = due → (s.run rest).dueTimers = [] →
    ∃ n, s.beginningsOf run.id rest = [⟨due, n, run⟩]

theorem Ready.beginsNext (h : s.Ready r t) (hs : s.Sound) (hf : s.coordinator.Faultless) :
    s.BeginsNext ⟨r.id, r.key⟩ (some t.deadline) where
  before := by
    intro rest hrest hbefore
    exact (h.rests hs (hbefore _ rfl)).none hs hf hrest (Nat.le_refl _)
  once := by
    intro rest hrest due hdue hend hsettled
    obtain rfl := Option.some.inj hdue
    exact ⟨t.number, h.once hs hf hrest hend hsettled⟩

/-- **After a run the next one begins an interval later.** -/
theorem Renewed.beginsNext {s' : System} {r' : Registration} (h : Renewed s s' r r')
    (hs : s'.Sound) (hf : s'.coordinator.Faultless) :
    s'.BeginsNext ⟨r.id, r.key⟩ (s.now.after? r.options.interval) := by
  cases hdue : s.now.after? r.options.interval with
  | some due =>
    obtain ⟨t, ht, rfl⟩ := h.timed due hdue
    have hkey : r'.key = r.key := congrArg PollOptions.key h.options
    have hnext := Ready.beginsNext ⟨h.free, ht⟩ hs hf
    rwa [h.id, hkey] at hnext
  | none =>
    -- There is no such time, so there is no timer either.
    refine ⟨fun rest hrest _ => ?_, fun _ _ _ hdue => absurd hdue (by simp)⟩
    have hrests : s'.Rests r' (s'.run rest).now := by
      refine ⟨h.free, fun t ht hpoll => ?_, fun hflight => ?_⟩
      · exact absurd (hdue.symm.trans (h.timers t ht (hpoll.trans h.id))) (by simp)
      · exact absurd (h.idle.symm.trans hflight) (by simp)
    have hnone := hrests.none hs hf hrest (Nat.le_refl _)
    rwa [h.id] at hnone

/-- A registration that may run may do so as long as nobody interferes. -/
theorem Free.run (h : s.Free r) (hs : s.Sound) {rest : List Event}
    (hrest : ∀ e ∈ rest, e.Unasked) :
    ∃ r', (s.run rest).Free r' ∧ r'.id = r.id ∧ r'.options = r.options := by
  induction rest generalizing s r with
  | nil => exact ⟨r, h, rfl, rfl⟩
  | cons e rest ih =>
    have hrest' : ∀ e ∈ rest, e.Unasked := fun e he => hrest e (by simp [he])
    obtain ⟨hfree, -⟩ | ⟨t, -, -, -, hfree⟩ | ⟨-, -, r', hr'⟩ :=
      h.unasked_cases hs (hrest e (by simp))
    · exact ih hfree (hs.step e) hrest'
    · obtain ⟨r', hfree, hid, hoptions⟩ := ih hfree (hs.step e) hrest'
      exact ⟨r', hfree, hid, hoptions⟩
    · obtain ⟨r'', hfree, hid, hoptions⟩ := ih hr'.free (hs.step e) hrest'
      exact ⟨r'', hfree, hid.trans hr'.id, hoptions.trans hr'.options⟩

/-- Whenever a run of its own ends the next one of such a registration begins an interval later. -/
theorem Free.beginsNext (h : s.Free r) (hs : s.Sound) (hf : s.coordinator.Faultless)
    {run : Run} (hrun : run ∈ s.runs) (hid : run.id = r.id) (failed : Bool) :
    (s.step (.finish run.id failed)).BeginsNext ⟨r.id, r.key⟩
      (s.now.after? r.options.interval) := by
  have hw : r.awaitedRun = some run.id := (hs.books.awaits_iff h.mem hrun).mpr (Or.inl hid.symm)
  obtain ⟨r', hr'⟩ := h.ended hs hrun hw failed
  exact hr'.beginsNext (hs.step _) (hs.faultless_step hf _)

end System

end FeedPoller
