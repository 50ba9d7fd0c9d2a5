/-
A monitor publishes the changes of the backend, and all of them.

What a monitor has found is a list, one entry for each probe that has ended.  The value it
publishes is the last entry and the number of its news is the number of changes in the list; and
since the monitor looks for watchers once behind each probe, the entries also say when it
ends, for which each of them keeps whether anybody was there to see it.  An event is one of three
things to a monitor: nothing, the beginning of a probe, or the end of one.  That no two probes are
made at a time is a count: every end has to be preceded by a beginning of its own, so at any
moment as many have begun as have ended, or one more.
-/
import FeedPoller.Health.System
import Mathlib.Data.List.Induction

namespace FeedPoller

/-- How many of the values differ from those in front of them. -/
def changes : List Bool → Nat
  | a :: b :: rest => (if a = b then 0 else 1) + changes (b :: rest)
  | _ => 0

/-- What comes of a probe: its result, and whether anybody is there to see it. -/
structure Finding where
  available : Bool
  watched : Bool
deriving DecidableEq, Repr

namespace MonitorSystem

variable {s s' : MonitorSystem} {e : MonitorEvent} {events : List MonitorEvent}

/-! ### One event -/

/-- When a probe begins with an event, if one does. -/
def begin? (s : MonitorSystem) : MonitorEvent → Option Instant
  | .turn =>
      if s.monitor.phase = .waiting ∧ (s.monitor.beginProbe s.now).phase = .probing then some s.now
      else none
  | _ => none

/-- What comes of the probe that ends with an event, if one does. -/
def finding? (s : MonitorSystem) : MonitorEvent → Option Finding
  | .probed available =>
      if s.monitor.phase = .probing then some ⟨available, s.watch.watchers != 0⟩ else none
  | _ => none

/-- What an event comes to for a monitor that has an interval. -/
inductive Effect (s : MonitorSystem) (e : MonitorEvent) (s' : MonitorSystem) : Prop where
  | none (phase : s'.monitor.phase = s.monitor.phase) (due : s'.monitor.due = s.monitor.due)
      (value : s'.watch.value = s.watch.value) (version : s'.watch.version = s.watch.version)
      (begins : s.begin? e = none) (finds : s.finding? e = none)
  | begun (before : s.monitor.phase = .waiting) (after : s'.monitor.phase = .probing)
      (due : s'.monitor.due ≤ s.now.later s.monitor.interval)
      (watch : s'.watch = s.watch) (begins : s.begin? e = some s.now) (finds : s.finding? e = none)
  | found {f : Finding} (before : s.monitor.phase = .probing)
      (after : s'.monitor.phase = if f.watched then .waiting else .ended)
      (due : s'.monitor.due = s.monitor.due) (value : s'.watch.value = f.available)
      (version : s'.watch.version
        = s.watch.version + if s.watch.value = f.available then 0 else 1)
      (begins : s.begin? e = none) (finds : s.finding? e = some f)

/-- The probe after one that begins when it is due is due an interval later at the latest. -/
theorem nextDue_le {m : Monitor} {now : Instant} (h : m.due ≤ now) :
    m.nextDue now ≤ now.later m.interval := by
  unfold Monitor.nextDue
  split
  · exact Nat.le_refl _
  · exact Nat.add_le_add_right h _

theorem interval_step (s : MonitorSystem) (e : MonitorEvent) :
    (s.step e).monitor.interval = s.monitor.interval := by
  cases e with
  | elapse d => rfl
  | leave => rfl
  | join =>
      simp only [step]
      split <;> rfl
  | turn =>
      simp only [step, Monitor.beginProbe]
      repeat' split
      all_goals rfl
  | probed available =>
      simp only [step, Monitor.endProbe]
      repeat' split
      all_goals rfl

theorem effect_turn (h : s.monitor.interval.isZero = false) : Effect s .turn (s.step .turn) := by
  cases hphase : s.monitor.phase with
  | waiting =>
      by_cases hdue : s.monitor.due ≤ s.now
      · have hstep : s.monitor.beginProbe s.now
            = { s.monitor with phase := .probing, due := s.monitor.nextDue s.now } := by
          simp [Monitor.beginProbe, hphase, h, hdue]
        refine .begun hphase ?_ ?_ ?_ (by simp [begin?, hphase, hstep]) rfl
        · simp [step, hstep]
        · simp only [step, hstep]
          exact nextDue_le hdue
        · simp [step, watch, hstep]
      · have hstep : s.monitor.beginProbe s.now = s.monitor := by
          simp [Monitor.beginProbe, hphase, h, hdue]
        refine .none ?_ ?_ ?_ ?_ (by simp [begin?, hphase, hstep]) rfl <;> simp [step, watch, hstep]
  | probing | ended =>
      have hstep : s.monitor.beginProbe s.now = s.monitor := by simp [Monitor.beginProbe, hphase]
      refine .none ?_ ?_ ?_ ?_ (by simp [begin?, hphase]) rfl <;> simp [step, watch, hstep]

theorem effect_probed (s : MonitorSystem) (available : Bool) :
    Effect s (.probed available) (s.step (.probed available)) := by
  cases hphase : s.monitor.phase with
  | probing =>
      have hfinds : s.finding? (.probed available) = some ⟨available, s.watch.watchers != 0⟩ :=
        if_pos hphase
      by_cases hvalue : s.monitor.watch.value = available <;>
        by_cases hwatchers : s.monitor.watch.watchers = 0
      all_goals
        refine .found hphase ?_ ?_ ?_ ?_ rfl hfinds <;>
          simp [step, watch, Watch.publish, Watch.close, Monitor.endProbe, hphase, hvalue,
            hwatchers]
  | waiting | ended =>
      have hstep : s.step (.probed available) = s := by simp [step, Monitor.endProbe, hphase]
      rw [hstep]
      exact .none rfl rfl rfl rfl rfl (by simp [finding?, hphase])

/-- Every event comes to one of these. -/
theorem effect (h : s.monitor.interval.isZero = false) (e : MonitorEvent) :
    Effect s e (s.step e) := by
  cases e with
  | turn => exact effect_turn h
  | probed available => exact effect_probed s available
  | elapse d => exact .none rfl rfl rfl rfl rfl rfl
  | leave => exact .none rfl rfl rfl rfl rfl rfl
  | join =>
      simp only [step]
      split
      · exact .none rfl rfl rfl rfl rfl rfl
      · exact .none rfl rfl rfl rfl rfl rfl

/-! ### Every history -/

/-- When probes begin in the course of a history. -/
def begins (s : MonitorSystem) : List MonitorEvent → List Instant
  | [] => []
  | e :: rest => (s.begin? e).toList ++ (s.step e).begins rest

/-- What comes of the probes that end in the course of a history. -/
def findings (s : MonitorSystem) : List MonitorEvent → List Finding
  | [] => []
  | e :: rest => (s.finding? e).toList ++ (s.step e).findings rest

/-- How many probes are being made. -/
def ongoing (s : MonitorSystem) : Nat := if s.monitor.phase = .probing then 1 else 0

theorem run_cons (s : MonitorSystem) (e : MonitorEvent) (rest : List MonitorEvent) :
    s.run (e :: rest) = (s.step e).run rest := rfl

theorem interval_run (s : MonitorSystem) (events : List MonitorEvent) :
    (s.run events).monitor.interval = s.monitor.interval := by
  induction events generalizing s with
  | nil => rfl
  | cons e rest ih => rw [run_cons, ih, interval_step]

/-- What is published is the last result, or what was published before there was any. -/
theorem value_run (h : s.monitor.interval.isZero = false) :
    (s.run events).watch.value
      = ((s.findings events).map (·.available)).getLastD s.watch.value := by
  induction events generalizing s with
  | nil => rfl
  | cons e rest ih =>
      rw [run_cons, ih (by rw [interval_step, h]), findings]
      cases effect h e with
      | none phase due value version begins finds => simp [finds, value]
      | begun before after due watch begins finds => simp [finds, watch]
      | found before after due value version begins finds =>
          rw [finds, value, Option.toList_some, List.singleton_append, List.map_cons,
            List.getLastD_cons]

/-- There is one piece of news for each change of the results. -/
theorem version_run (h : s.monitor.interval.isZero = false) :
    (s.run events).watch.version
      = s.watch.version + changes (s.watch.value :: (s.findings events).map (·.available)) := by
  induction events generalizing s with
  | nil => rfl
  | cons e rest ih =>
      rw [run_cons, ih (by rw [interval_step, h]), findings]
      cases effect h e with
      | none phase due value version begins finds => simp [finds, value, version]
      | begun before after due watch begins finds => simp [finds, watch]
      | found before after due value version begins finds =>
          rw [finds, value, version, Option.toList_some, List.singleton_append, List.map_cons,
            changes, Nat.add_assoc]

/-- The probes that have begun are those that have ended and those that are being made. -/
theorem begins_run (h : s.monitor.interval.isZero = false) :
    s.ongoing + (s.begins events).length = (s.findings events).length + (s.run events).ongoing := by
  induction events generalizing s with
  | nil => simp [begins, findings, run]
  | cons e rest ih =>
      have hrest := ih (s := s.step e) (by rw [interval_step, h])
      rw [run_cons, begins, findings, List.length_append, List.length_append]
      cases effect h e with
      | none phase due value version begins finds =>
          have hsame : (s.step e).ongoing = s.ongoing := by simp [ongoing, phase]
          rw [hsame] at hrest
          simp [begins, finds, hrest]
      | begun before after due watch begins finds =>
          have hbefore : s.ongoing = 0 := by simp [ongoing, before]
          have hafter : (s.step e).ongoing = 1 := by simp [ongoing, after]
          simp only [begins, finds, hbefore, hafter, Option.toList_none, Option.toList_some,
            List.length_nil, List.length_singleton] at hrest ⊢
          omega
      | @found f before after due value version begins finds =>
          have hover : (s.step e).ongoing = 0 := by
            cases hseen : f.watched <;> simp [ongoing, after, hseen]
          have hgoing : s.ongoing = 1 := by simp [ongoing, before]
          simp only [begins, finds, hover, hgoing, Option.toList_none, Option.toList_some,
            List.length_nil, List.length_singleton] at hrest ⊢
          omega

/-- A monitor that has ended finds nothing more. -/
theorem run_of_ended (h : s.monitor.interval.isZero = false) (hended : s.monitor.phase = .ended)
    (events : List MonitorEvent) :
    (s.run events).monitor.phase = .ended ∧ s.findings events = [] := by
  induction events generalizing s with
  | nil => exact ⟨hended, rfl⟩
  | cons e rest ih =>
      rw [run_cons, findings]
      cases effect h e with
      | none phase due value version begins finds =>
          rw [finds]
          exact ih (by rw [interval_step, h]) (phase.trans hended)
      | begun before => exact absurd (before.symm.trans hended) (by simp)
      | found before => exact absurd (before.symm.trans hended) (by simp)

/-- A monitor ends with the first probe whose result nobody is there to see. -/
theorem ended_run (h : s.monitor.interval.isZero = false) (hgoes : s.monitor.phase ≠ .ended)
    (events : List MonitorEvent) :
    ((s.run events).monitor.phase = .ended ↔ ∃ f ∈ s.findings events, f.watched = false) ∧
      ∀ f ∈ (s.findings events).dropLast, f.watched = true := by
  induction events generalizing s with
  | nil => simp [findings, run, hgoes]
  | cons e rest ih =>
      have hzero : (s.step e).monitor.interval.isZero = false := by rw [interval_step, h]
      rw [run_cons, findings]
      cases effect h e with
      | none phase due value version begins finds =>
          rw [finds]
          exact ih hzero (phase ▸ hgoes)
      | begun before after due watch begins finds =>
          rw [finds]
          exact ih hzero (by simp [after])
      | @found f before after due value version begins finds =>
          rw [finds, Option.toList_some, List.singleton_append]
          cases hseen : f.watched with
          | true =>
              obtain ⟨hiff, hlast⟩ := ih hzero (by simp [after, hseen])
              refine ⟨by simp [hiff, hseen], fun g hg => ?_⟩
              cases hrest : (s.step e).findings rest with
              | nil => simp [hrest] at hg
              | cons first others =>
                  rw [hrest, List.dropLast_cons_cons] at hg
                  rcases List.mem_cons.mp hg with rfl | hg
                  · exact hseen
                  · exact hlast g (hrest ▸ hg)
          | false =>
              obtain ⟨hended, hnone⟩ := run_of_ended hzero (by simp [after, hseen]) rest
              rw [hnone]
              exact ⟨by simp [hended, hseen], by simp⟩

/-- The next probe is due an interval after the last one began, at the latest. -/
theorem due_run (h : s.monitor.interval.isZero = false) :
    (s.run events).monitor.due
      ≤ ((s.begins events).map (·.later s.monitor.interval)).getLastD s.monitor.due := by
  induction events generalizing s with
  | nil => exact Nat.le_refl _
  | cons e rest ih =>
      have hrest := ih (s := s.step e) (by rw [interval_step, h])
      rw [interval_step] at hrest
      rw [run_cons, begins]
      cases effect h e with
      | none phase due value version begins finds => simpa [begins, due] using hrest
      | found before after due value version begins finds => simpa [begins, due] using hrest
      | begun before after due watch begins finds =>
          rw [begins, Option.toList_some, List.singleton_append, List.map_cons, List.getLastD_cons]
          cases hbegins : (s.step e).begins rest using List.reverseRecOn with
          | nil =>
              rw [hbegins] at hrest
              exact Nat.le_trans hrest due
          | append_singleton others last =>
              rw [hbegins] at hrest
              simpa using hrest

/-- A monitor that has not ended makes its next probe when that is due. -/
theorem probing_of_due (h : s.monitor.interval.isZero = false) (hgoes : s.monitor.phase ≠ .ended)
    {d : Duration} (hdue : s.monitor.due ≤ s.now.later d) :
    ((s.step (.elapse d)).step .turn).monitor.phase = .probing := by
  cases hphase : s.monitor.phase with
  | waiting => simp [step, Monitor.beginProbe, hphase, h, hdue]
  | probing => simp [step, Monitor.beginProbe, hphase]
  | ended => exact absurd hphase hgoes

/--
**A monitor publishes exactly the changes.**  After any history of a monitor that has an interval,
the value that is published is the result of the last probe that has ended, or that the backend
is up if none has, and the pieces of news are as many as there are changes along the
results, beginning with that.  As many probes have begun as have ended, or one more, which is
being made.  The monitor has ended exactly if the last probe to end found nobody watching, and each
of the probes before found somebody.  Until then its next probe is due an interval after the
last one began, at the latest, and is made when it is due.
-/
theorem changes_published (interval : Duration) (now : Instant) (events : List MonitorEvent)
    (h : interval.isZero = false) :
    let s := (start interval now).run events
    let found := (start interval now).findings events
    let begun := (start interval now).begins events
    s.watch.value = (found.map (·.available)).getLastD true ∧
    s.watch.version = changes (true :: found.map (·.available)) ∧
    begun.length = found.length + (if s.monitor.phase = .probing then 1 else 0) ∧
    (s.monitor.phase = .ended ↔ ∃ f ∈ found, f.watched = false) ∧
    (∀ f ∈ found.dropLast, f.watched = true) ∧
    s.monitor.due ≤ (begun.map (·.later interval)).getLastD now ∧
    (s.monitor.phase ≠ .ended → ∀ d, s.monitor.due ≤ s.now.later d →
      ((s.step (.elapse d)).step .turn).monitor.phase = .probing) := by
  intro s found begun
  have hs : s.monitor.interval.isZero = false := by rw [interval_run]; exact h
  have hgoes : (start interval now).monitor.phase ≠ .ended := by simp [start, Monitor.start]
  obtain ⟨hended, hlast⟩ := ended_run (s := start interval now) h hgoes events
  refine ⟨value_run h, ?_, ?_, hended, hlast, due_run h, fun hgoes d => probing_of_due hs hgoes⟩
  · exact (version_run h).trans (Nat.zero_add _)
  · exact (Nat.zero_add _).symm.trans (begins_run (s := start interval now) h)

/-- The backend goes down and comes back, and the last watcher leaves during the probe that finds
it down again. -/
def flapping : List MonitorEvent :=
  [.turn, .probed true, .elapse (.ofSeconds 30), .turn, .join, .elapse (.ofSeconds 45),
    .probed false, .turn, .leave, .probed true, .elapse (.ofSeconds 60), .turn, .leave,
    .probed false, .elapse (.ofSeconds 60), .turn]

theorem changes_published_flapping :
    (Duration.ofSeconds 30).isZero = false ∧
    ((start (.ofSeconds 30) ⟨0⟩).findings flapping).map (·.available) = [true, false, true, false] ∧
    ((start (.ofSeconds 30) ⟨0⟩).run flapping).watch.version = 3 ∧
    ((start (.ofSeconds 30) ⟨0⟩).run flapping).monitor.phase = .ended := by
  have hfound : (start (.ofSeconds 30) ⟨0⟩).findings flapping
      = [⟨true, true⟩, ⟨false, true⟩, ⟨true, true⟩, ⟨false, false⟩] := by decide +kernel
  obtain ⟨-, hversion, -, hended, -⟩ :=
    changes_published (.ofSeconds 30) ⟨0⟩ flapping (by decide)
  rw [hfound] at hversion hended
  exact ⟨by decide, by rw [hfound]; rfl, hversion, hended.mpr ⟨⟨false, false⟩, by simp⟩⟩

end MonitorSystem

end FeedPoller
