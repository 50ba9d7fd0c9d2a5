/-
The timetable of polls that are left alone.

Polls are registered one after the other, and from then on nobody asks for anything: time
passes, timers go off and runs end, well or badly and after however long a time.  What is to be
seen of a poll is then a list of beginnings and ends (`notes`), and a `Timetable` says which
lists there can be.  The first beginning is due at a fixed time, each later one an interval after
the end before it, and nothing begins but what is due.  How a run ended is nowhere in it.

A poll goes through its timetable between two situations (`Stage`): it waits for its timer, or
for the end of its run.  One event takes it from one to the other or leaves it where it is, and
the timetable grows accordingly, which is the induction.  Other polls do not matter, since
no run of the key goes on but this registration's (`Sole`).
-/
import FeedPoller.Proofs.Poll.Stagger

namespace FeedPoller

/-- A time is the first tick at a point in time, of a clock that ticks every millisecond. -/
structure Instant.Meets (due time : Instant) : Prop where
  reached : due ≤ time
  tick : time.millisUp = due.millisUp
  /-- A point at which the clock ticks is met exactly. -/
  exact : due.nanos % 1000000 = 0 → time = due

theorem Instant.meets {due time : Instant} (hreached : due ≤ time)
    (htick : time.millisUp ≤ due.millisUp) : due.Meets time where
  reached := hreached
  tick := Nat.le_antisymm htick (Instant.millisUp_mono hreached)
  exact := by
    intro hwhole
    have hle : due.nanos ≤ time.nanos := hreached
    have hlast : (time.nanos + 999999) / 1000000 ≤ (due.nanos + 999999) / 1000000 := htick
    have hnanos : time.nanos = due.nanos := by omega
    exact congrArg Instant.mk hnanos

/-- What is to be seen of a poll: a run begins or ends at a time. -/
inductive Note where
  | began (time : Instant)
  | ended (time : Instant)
deriving DecidableEq, Repr

/--
What is to be seen of a poll with an interval, from one situation to another: whether its next run
is due at a time or it is running.
-/
inductive Timetable (interval : Duration) : Option Instant → List Note → Option Instant → Prop where
  | rest {due? : Option Instant} : Timetable interval due? [] due?
  | begins {due time : Instant} {notes : List Note} {last? : Option Instant}
      (hit : due.Meets time) (more : Timetable interval none notes last?) :
      Timetable interval (some due) (.began time :: notes) last?
  | ends {time : Instant} {notes : List Note} {last? : Option Instant}
      (more : Timetable interval (some (time.later interval)) notes last?) :
      Timetable interval none (.ended time :: notes) last?

theorem Instant.after_later {t : Instant} {d : Duration} (h : (t.after? d).isSome) :
    t.after? d = some (t.later d) :=
  if_pos (Instant.after_isSome.mp h)

namespace System

open Coordinator

variable {s s' : System} {r : Registration} {t : Timer} {e : Event} {due? : Option Instant}

/-- What an event shows of the poll of a key. -/
def note? (s : System) (key : String) : Event → Option Note
  | .fire n => (s.fire n).2.bind fun run => if run.key = key then some (.began s.now) else none
  | .finish id _ =>
      (s.runs.find? (·.id == id)).bind fun run =>
        if run.key = key then some (.ended s.now) else none
  | _ => none

/-- What a history shows of the poll of a key. -/
def notes (key : String) : System → List Event → List Note
  | _, [] => []
  | s, e :: rest => (s.note? key e).toList ++ (s.step e).notes key rest

/-- A registration that may run, and no runs of its key but its own. -/
structure Sole (s : System) (r : Registration) : Prop where
  free : s.Free r
  heir : r.superseded = none
  own : ∀ run ∈ s.runs, run.key = r.key → run.id = r.id

/-- Whatever run of the key begins is the registration's. -/
theorem Sole.own_step (h : s.Sole r) (hs : s.Sound) {run : Run} (hrun : run ∈ (s.step e).runs)
    (hkey : run.key = r.key) : run.id = r.id := by
  rcases hs.run_origin e hrun with hrun | ⟨q, hq, hid, hqkey⟩
  · exact h.own run hrun hkey
  · rw [← hid, hs.tidy.key_unique hq h.free.mem (hqkey.trans hkey)]

/-- A run of the key is the one that the registration waits for. -/
theorem Sole.awaited (h : s.Sole r) (hs : s.Sound) {run : Run} (hrun : run ∈ s.runs)
    (hkey : run.key = r.key) : r.awaitedRun = some run.id :=
  (hs.books.awaits_iff h.free.mem hrun).mpr (Or.inl (h.own run hrun hkey).symm)

/--
What an unasked event can do to such a registration: nothing is to be seen of it, or its timer
begins a run, or its run ends and the next one is asked for.
-/
theorem Sole.unasked_cases (h : s.Sole r) (hs : s.Sound) (he : e.Unasked) :
    ((s.step e).Sole r ∧ s.note? r.key e = none) ∨
    (∃ t, s.TimedBy r t ∧ t.deadline ≤ s.now ∧ s.note? r.key e = some (.began s.now) ∧
      (s.step e).Sole r.begun) ∨
    (r.inFlight = true ∧ s.note? r.key e = some (.ended s.now) ∧
      ∃ r', Renewed s (s.step e) r r' ∧ (s.step e).Sole r') := by
  have hgates := s.step_gates he.aside
  have hunpaused : r.isPaused (s.step e).coordinator.gates = false := hgates.symm ▸ h.free.unpaused
  have hown : ∀ run ∈ (s.step e).runs, run.key = r.key → run.id = r.id :=
    fun run hrun hkey => h.own_step hs hrun hkey
  have hsame (hmem : r ∈ (s.step e).coordinator.registry) : (s.step e).Sole r :=
    ⟨⟨hmem, hunpaused, h.free.kept⟩, h.heir, hown⟩
  cases e with
  | elapse d => exact Or.inl ⟨hsame h.free.mem, rfl⟩
  | wake n =>
    refine Or.inl ⟨hsame ?_, rfl⟩
    show r ∈ (s.wake n).coordinator.registry
    unfold System.wake
    split <;> exact h.free.mem
  | fire n =>
    obtain ⟨hmem, hno⟩ | ⟨t, ht, -, hdue, hrun, hmem⟩ := h.free.fire_cases hs n
    · refine Or.inl ⟨hsame hmem, ?_⟩
      rw [note?]
      cases hrun : (s.fire n).2 with
      | none => rfl
      | some run =>
        -- A run of the key would be one of the registration.
        have hkey : run.key ≠ r.key := by
          intro hkey
          obtain ⟨q, t, hright⟩ := hs.rightful hrun
          have hq := hs.tidy.key_unique hright.registered h.free.mem (hright.key.trans hkey)
          exact hno run hrun (hright.id.symm.trans (congrArg Registration.id hq))
        exact if_neg hkey
    · refine Or.inr (Or.inl ⟨t, ht, hdue, ?_, ⟨hmem, hunpaused, h.free.kept⟩, h.heir, hown⟩)
      rw [note?, hrun]
      exact if_pos rfl
  | finish id failed =>
    by_cases hends : ∃ run ∈ s.runs, run.id = id ∧ run.key = r.key
    · obtain ⟨run, hrun, rfl, hkey⟩ := hends
      have hw := h.awaited hs hrun hkey
      obtain ⟨r', hr'⟩ := h.free.ended hs hrun hw failed
      have hsuperseded := (hs.step (.finish run.id failed)).books.superseded_none hr'.free.mem
        hr'.idle
      have hfound : s.runs.find? (·.id == run.id) = some run := by
        cases hf : s.runs.find? (·.id == run.id) with
        | none => exact absurd (List.find?_eq_none.mp hf run hrun) (by simp)
        | some run' =>
          have hid : run'.id = run.id := by simpa using List.find?_some hf
          rw [List.inj_on_of_nodup_map hs.books.distinct (List.mem_of_find?_eq_some hf) hrun hid]
      refine Or.inr (Or.inr ⟨(Registration.awaitedRun_eq_some.mp hw).1, ?_, r', hr', hr'.free,
        hsuperseded, fun run hrun hkey' => ?_⟩)
      · rw [note?, hfound]
        exact if_pos hkey
      · rw [hr'.id]
        exact hown run hrun (hkey'.trans (congrArg PollOptions.key hr'.options))
    · refine Or.inl ⟨hsame ?_, ?_⟩
      · obtain hmem | ⟨run, hrun, hid, hw⟩ := h.free.finish_cases hs id failed
        · exact hmem
        · exact absurd ⟨run, hrun, hid, hs.books.keyed r h.free.mem run hrun hw⟩ hends
      · rw [note?]
        cases hf : s.runs.find? (·.id == id) with
        | none => rfl
        | some run =>
          have hid : run.id = id := by simpa using List.find?_some hf
          exact if_neg fun hkey => hends ⟨run, List.mem_of_find?_eq_some hf, hid, hkey⟩
  | _ => exact he.elim

/-- Where a registration is in its timetable: its timer is due at a time, or it is running. -/
inductive Stage (s : System) (r : Registration) : Option Instant → Prop where
  | waiting {t : Timer} (timed : s.TimedBy r t) : Stage s r (some t.deadline)
  | running (busy : r.inFlight = true) : Stage s r none

/-- An event that nothing is to be seen of leaves a registration in its situation. -/
theorem Stage.kept (h : s.Stage r due?) (hs : s.Sound) (hr : r ∈ s.coordinator.registry)
    (hr' : r ∈ (s.step e).coordinator.registry) : (s.step e).Stage r due? := by
  cases h with
  | waiting ht => exact .waiting (hs.timedBy_of_kept hr ht hr')
  | running hbusy => exact .running hbusy

/-- A registration follows its timetable as long as the deadlines can be named. -/
theorem Sole.timetable (h : s.Sole r) (hstage : s.Stage r due?) (hs : s.Sound) (hin : s.InTime)
    {rest : List Event} (hrest : ∀ e ∈ rest, e.Unasked) (hpunctual : Lawful Punctual s rest)
    (hnamed : ∀ time, Note.ended time ∈ s.notes r.key rest →
      (time.after? r.options.interval).isSome) :
    ∃ r' last?, Timetable r.options.interval due? (s.notes r.key rest) last? ∧
      r'.key = r.key ∧ (s.run rest).Sole r' ∧ (s.run rest).Stage r' last? ∧
      (s.run rest).InTime := by
  induction rest generalizing s r due? with
  | nil => exact ⟨r, due?, .rest, rfl, h, hstage, hin⟩
  | cons e rest ih =>
    have hs' := hs.step e
    have hin' := hs.inTime_step hin hpunctual.1
    have hrest' : ∀ e ∈ rest, e.Unasked := fun e he => hrest e (by simp [he])
    rw [notes] at hnamed ⊢
    obtain ⟨hsole, hnote⟩ | ⟨t, ht, hdue, hnote, hsole⟩ | ⟨hbusy, hnote, r', hr', hsole⟩ :=
      h.unasked_cases hs (hrest e (by simp))
    · rw [hnote] at hnamed ⊢
      exact ih hsole (hstage.kept hs h.free.mem hsole.free.mem) hs' hin' hrest' hpunctual.2 hnamed
    · rw [hnote] at hnamed ⊢
      obtain ⟨r'', last?, htable, hkey, hend⟩ := ih hsole (.running rfl) hs' hin' hrest' hpunctual.2
        fun time htime => hnamed time (List.mem_cons_of_mem _ htime)
      cases hstage with
      | @waiting u hu =>
        have heq : [u] = [t] := hu.armed.symm.trans ht.armed
        obtain rfl := (List.cons.inj heq).1
        exact ⟨r'', last?, .begins (Instant.meets hdue (hin u hu.mem)) htable, hkey, hend⟩
      | running hbusy =>
        have hidle := hs.tidy.idle r h.free.mem (by simp [ht.remembered])
        exact absurd (hidle.symm.trans hbusy) (by simp)
    · rw [hnote] at hnamed ⊢
      have hkey : r'.key = r.key := congrArg PollOptions.key hr'.options
      have hdue := Instant.after_later (hnamed s.now List.mem_cons_self)
      obtain ⟨t, ht, hdeadline⟩ := hr'.timed _ hdue
      have hwaits : (s.step e).Stage r' (some (s.now.later r.options.interval)) :=
        hdeadline ▸ .waiting ht
      rw [← hkey] at hnamed ⊢
      rw [← hr'.options] at hnamed hwaits ⊢
      obtain ⟨r'', last?, htable, hkey', hend⟩ := ih hsole hwaits hs' hin' hrest' hpunctual.2
        fun time htime => hnamed time (List.mem_cons_of_mem _ htime)
      cases hstage with
      | waiting hu =>
        have hidle := hs.tidy.idle r h.free.mem (by simp [hu.remembered])
        exact absurd (hidle.symm.trans hbusy) (by simp)
      | running => exact ⟨r'', last?, .ends htable, hkey', hend⟩

/-- Where a registration is in its timetable is what its runs and its timer say. -/
theorem Sole.running_iff (h : s.Sole r) (hstage : s.Stage r due?) (hs : s.Sound) :
    (∃ run ∈ s.runs, run.key = r.key) ↔ due? = none := by
  cases hstage with
  | waiting ht =>
    have hidle := hs.tidy.idle r h.free.mem (by simp [ht.remembered])
    refine ⟨fun ⟨run, hrun, hkey⟩ => ?_, fun hnone => absurd hnone (by simp)⟩
    exact absurd (h.own run hrun hkey) (hs.books.alone h.free.mem hidle run hrun)
  | running hbusy =>
    refine ⟨fun _ => rfl, fun _ => ?_⟩
    obtain ⟨run, hrun, hid⟩ := (hs.books.marked r h.free.mem).mp hbusy
    refine ⟨run, hrun, hs.books.keyed r h.free.mem run hrun ?_⟩
    exact Registration.awaitedRun_eq_some.mpr ⟨hbusy, hid.symm⟩

/-- When the time of its timer has come, the turn of the timer begins a run of the registration. -/
theorem Sole.begins (h : s.Sole r) (hs : s.Sound) (ht : s.TimedBy r t) (hdue : t.deadline ≤ s.now) :
    t ∈ s.dueTimers ∧ (s.fire t.number).2 = some ⟨r.id, r.key⟩ := by
  refine ⟨List.mem_filter.mpr ⟨ht.mem, decide_eq_true hdue⟩, ?_⟩
  rw [hs.fire_of_due ht.mem hdue h.free.mem ht.poll_eq.symm h.free.unpaused]

/-- No armed timer is late when the first calls have been made. -/
theorem inTime_registered (config : CoordinatorConfig) (clock : Clock) (draws : Draws)
    (polls : List PollOptions) :
    ((initial config clock draws).run (polls.map .register)).InTime := by
  have hall : ∀ {s : System}, s.Sound → s.InTime → (s.run (polls.map .register)).InTime := by
    induction polls with
    | nil => exact fun _ hin => hin
    | cons o polls ih => exact fun hs hin => ih (hs.step _) (hs.inTime_step hin trivial)
  exact hall (sound_initial config clock draws) fun t ht => absurd ht List.not_mem_nil

/--
**Polls that are left alone keep their timetable.**  However many polls with keys of their own are
registered one after the other with a new coordinator, and whatever time their runs take and
however these end, the first run of each begins as many stagger steps after the registration as
there are polls before it, every later one begins an interval after the end of the one before,
and no other run of its key begins.  At any time the poll is running or its next deadline has
not passed; and when that has come, its timer is due, and the turn of the timer begins the
next run.  Beginnings are on the tick of a millisecond clock that stops at every deadline;
steps are counted as far as 32 bits go.
-/
theorem timetable_exact (config : CoordinatorConfig) (clock : Clock) (draws : Draws)
    {polls : List PollOptions} {rest : List Event} (hfault : ∀ o ∈ polls, o.fault? = none)
    (hkeys : (polls.map (·.key)).Nodup)
    (hnamed : ∀ i < polls.length,
      (clock.now.after? (config.staggerStep.times (min i (Nat.pow 2 32 - 1)))).isSome)
    (hrest : ∀ e ∈ rest, e.Unasked)
    (hpunctual : Lawful Punctual ((initial config clock draws).run (polls.map .register)) rest) :
    let start := (initial config clock draws).run (polls.map .register)
    let s := start.run rest
    ∀ i o, polls[i]? = some o →
      (∀ time, Note.ended time ∈ start.notes o.key rest → (time.after? o.interval).isSome) →
      ∃ first last?,
        first.nanos = clock.now.nanos + min i (Nat.pow 2 32 - 1) * config.staggerStep.nanos ∧
        (i < Nat.pow 2 32 → first.nanos = clock.now.nanos + i * config.staggerStep.nanos) ∧
        Timetable o.interval (some first) (start.notes o.key rest) last? ∧
        ((∃ run ∈ s.runs, run.key = o.key) ↔ last? = none) ∧
        ∀ due, last? = some due → s.now.millisUp ≤ due.millisUp ∧
          (s.dueTimers = [] → s.now < due) ∧
          (due ≤ s.now → ∃ t ∈ s.dueTimers, ∃ run, (s.fire t.number).2 = some run ∧
            run.key = o.key) := by
  intro start s i o ho hends
  have hs : start.Sound := sound_run config clock draws _
  have hgranted : Lawful (fun s e => (s.granted e).isSome) (initial config clock draws)
      (polls.map .register) :=
    (staggered_initial config clock draws).lawful (sound_initial config clock draws) rfl hfault
      hkeys hnamed
  have hall : Staggered (initial config clock draws).coordinator polls start :=
    (staggered_initial config clock draws).run (sound_initial config clock draws) rfl hgranted
  obtain ⟨r, hr, hplaced, rfl, hplace⟩ := hall.placed_of_nodup hkeys ho
  obtain ⟨t, ht, -⟩ := hplaced.timed
  -- The registration may run, has its timer, and nothing is going on yet.
  have hprompt := (faultless_prompt_run config clock draws (polls.map .register)).2
  have hidle : r.inFlight = false := hs.tidy.idle r hr (by simp [ht.remembered])
  have hgates : start.coordinator.gates = {} := congrArg (·.1) hall.setting
  have hsole : start.Sole r := by
    refine ⟨⟨hr, ?_, hprompt r hr hidle⟩, hs.books.superseded_none hr hidle, fun run hrun => ?_⟩
    · simp [Registration.isPaused, Registration.gateClosed, hplaced.unpaused, hgates]
    · rw [hall.quiet] at hrun
      exact absurd hrun List.not_mem_nil
  obtain ⟨r', last?, htable, hkey, hsole', hstage, hin⟩ :=
    hsole.timetable (.waiting ht) hs (inTime_registered config clock draws polls) hrest hpunctual
      hends
  have hfirst : t.deadline.nanos =
      clock.now.nanos + min i (Nat.pow 2 32 - 1) * config.staggerStep.nanos := by
    have hnow : start.now = clock.now := congrArg (·.2.1.now) hall.setting
    have hconfig : start.coordinator.config = config := congrArg (·.2.2) hall.setting
    rw [hplaced.deadline ht, hnow, hconfig, hplace]
  refine ⟨t.deadline, last?, hfirst, fun hsmall => ?_, htable, ?_, fun due hdue => ?_⟩
  · have hsteps : min i (Nat.pow 2 32 - 1) = i := Nat.min_eq_left (Nat.le_pred_of_lt hsmall)
    rw [hfirst, hsteps]
  · have hrunning := hsole'.running_iff hstage (hs.run rest)
    rwa [hkey] at hrunning
  · subst hdue
    cases hstage with
    | @waiting u hu =>
      refine ⟨hin u hu.mem, fun hnone => Nat.lt_of_not_le fun hdue => ?_, fun hdue => ?_⟩
      · have hmem := (hsole'.begins (hs.run rest) hu hdue).1
        rw [hnone] at hmem
        exact absurd hmem List.not_mem_nil
      · obtain ⟨hmem, hbegins⟩ := hsole'.begins (hs.run rest) hu hdue
        exact ⟨u, hmem, _, hbegins, hkey⟩

/-- Two polls, the second of which fails at once and is due again before the first one is. -/
def commuters : List PollOptions :=
  [{ key := "trains", interval := .ofSeconds 60 }, { key := "roads", interval := .ofSeconds 5 }]

/-- What happens to them: one timer has to wait for its turn, and one run takes three seconds. -/
def commute : List Event :=
  [.fire 0, .elapse (.ofSeconds 1), .wake 1, .fire 1, .finish 1 true, .elapse (.ofSeconds 2),
    .finish 0 false, .elapse (.ofSeconds 3), .fire 2]

theorem timetable_exact_commute :
    let start := (initial {} default ⟨[], []⟩).run (commuters.map .register)
    let s := start.run commute
    (∀ o ∈ commuters, o.fault? = none) ∧ (commuters.map (·.key)).Nodup ∧
    (∀ e ∈ commute, e.Unasked) ∧ Lawful Punctual start commute ∧
    start.notes "roads" commute =
      [.began ⟨1000000000⟩, .ended ⟨1000000000⟩, .began ⟨6000000000⟩] ∧
    ∃ first last?,
      first.nanos = (default : Clock).now.nanos +
        min 1 (Nat.pow 2 32 - 1) * (CoordinatorConfig.staggerStep {}).nanos ∧
      (1 < Nat.pow 2 32 → first.nanos = (default : Clock).now.nanos +
        1 * (CoordinatorConfig.staggerStep {}).nanos) ∧
      Timetable (.ofSeconds 5) (some first) (start.notes "roads" commute) last? ∧
      ((∃ run ∈ s.runs, run.key = "roads") ↔ last? = none) ∧
      ∀ due, last? = some due → s.now.millisUp ≤ due.millisUp ∧
        (s.dueTimers = [] → s.now < due) ∧
        (due ≤ s.now → ∃ t ∈ s.dueTimers, ∃ run, (s.fire t.number).2 = some run ∧
          run.key = "roads") :=
  have hfault : ∀ o ∈ commuters, o.fault? = none := by decide +kernel
  have hkeys : (commuters.map (·.key)).Nodup := by decide +kernel
  have hnamed : ∀ i < commuters.length, ((default : Clock).now.after?
      ((CoordinatorConfig.staggerStep {}).times (min i (Nat.pow 2 32 - 1)))).isSome := by
    decide +kernel
  have hrest : ∀ e ∈ commute, e.Unasked := by decide +kernel
  have hpunctual : Lawful Punctual
      ((initial {} default ⟨[], []⟩).run (commuters.map .register)) commute := by decide +kernel
  have hends : ∀ time,
      Note.ended time ∈ ((initial {} default ⟨[], []⟩).run (commuters.map .register)).notes "roads"
        commute → (time.after? (.ofSeconds 5)).isSome := by
    intro time htime
    have hnotes : ((initial {} default ⟨[], []⟩).run (commuters.map .register)).notes "roads"
        commute = [.began ⟨1000000000⟩, .ended ⟨1000000000⟩, .began ⟨6000000000⟩] := by
      decide +kernel
    rw [hnotes] at htime
    have heq : time = ⟨1000000000⟩ := by simpa using htime
    rw [heq]
    decide +kernel
  ⟨hfault, hkeys, hrest, hpunctual, by decide +kernel,
    timetable_exact {} default ⟨[], []⟩ hfault hkeys hnamed hrest hpunctual 1 _ rfl hends⟩

end System

end FeedPoller
