/-
Keys do not disturb each other.

A simulation is played twice, with the same configuration, the same draws and the same steps,
but the runs of one key go differently: they take more or less time, and they end well, in
an error or in a panic.  For every other key nothing changes: its runs begin and end at
the same times, it is given the same random delays, and its status is the same after each
step (`keys_isolated`).

Each script is played in exactly one way (`existsUnique_plays`).  A handle is a number in a
script, and the numbers are given out in the order of the registrations that succeed; a step
that names a handle is the same step in both simulations if the number means the same
registration in both.  It does unless a first run could not be put off so far, which is
noticed only by a registration that does not have to wait for another run.
-/
import FeedPoller.Proofs.Simulation.Arrival

namespace FeedPoller

open Simulation

namespace Simulation

/-! ### What has been planned, through the veil -/

/-- Whether an entry is a timer of a registration. -/
def Entry.isTimerOf (id : Nat) (e : Entry) : Bool := e.timer?.any (·.poll == id)

/-- What is not about the veiled key is found behind the veil as it is found before it. -/
theorem find?_besides_other {key : String} {id : Option Nat} {l : List Entry} {p : Entry → Bool}
    (hplain : ∀ e : Entry, p e.plain = p e)
    (hother : ∀ e ∈ l, p e = true → e.isOf key id = false) :
    (besides key id l).find? p = (l.find? p).map Entry.plain := by
  have hcomp : p ∘ Entry.plain = p := funext hplain
  rw [besides, List.find?_map, hcomp, ← List.head?_filter, ← List.head?_filter, List.filter_filter]
  congr 2
  refine List.filter_congr fun e he => ?_
  cases hp : p e with
  | false => rfl
  | true => simp [hother e he hp]

end Simulation

namespace Coordinator

variable {hidden key : String} {c c' : Coordinator} {waits waits' : List Wait} {id : Nat}

/-- What is planned for a key: when its timer is due, and the delay asked for during its run. -/
def plan? (c : Coordinator) (key : String) : Option (Option Instant × Option Duration) :=
  (c.find? key).map fun r =>
    ((c.timers.find? fun t => t.poll == r.id).map (·.deadline), r.pendingDelay)

/-- When the timer of another key is due can be seen. -/
theorem deadline_seen (hl : c.LaidWith waits) (hother : c.idOf? hidden ≠ some id) :
    (c.timers.find? fun t => t.poll == id).map (·.deadline)
      = ((c.theirs hidden waits).find? (·.isTimerOf id)).bind fun e =>
          e.timer?.map (·.deadline) := by
  have hseen : (c.theirs hidden waits).find? (·.isTimerOf id)
      = ((agenda c.timers waits).find? (·.isTimerOf id)).map Entry.plain := by
    refine find?_besides_other (fun e => by cases e <;> rfl) fun e _ hp => ?_
    cases e with
    | wait k => exact absurd hp (by simp [Entry.isTimerOf, Entry.timer?])
    | timer t =>
        have hpoll : t.poll = id := by simpa [Entry.isTimerOf, Entry.timer?] using hp
        simpa [Entry.isOf, hpoll] using hother
  conv_lhs => rw [← hl.timers]
  rw [hseen, List.find?_filterMap]
  show (((agenda c.timers waits).find? (·.isTimerOf id)).bind Entry.timer?).map (·.deadline) = _
  cases (agenda c.timers waits).find? (·.isTimerOf id) with
  | none => rfl
  | some e => cases e <;> rfl

theorem Alike.plan? (h : Alike hidden waits waits' c c') (hne : key ≠ hidden) :
    c.plan? key = c'.plan? key := by
  unfold Coordinator.plan?
  obtain ⟨e, e'⟩ | ⟨r, r', e, e', hv⟩ := h.find? key <;> rw [e, e']
  · rfl
  · obtain ⟨hr, hkey⟩ := find?_mem e
    have hother : c.idOf? hidden ≠ some r.id := by
      rw [Ne, idOf?_eq_some h.tidy.toOrderly hr, hkey]
      exact hne
    have hdelay : r.pendingDelay = r'.pendingDelay :=
      Registration.eq_of_veil_other (·.pendingDelay) (hkey ▸ hne) hv fun _ => rfl
    have hother' : c'.idOf? hidden ≠ some r'.id := by
      rw [← h.idOf?, ← Registration.id_of_veil hv]
      exact hother
    rw [Option.map_some, Option.map_some, deadline_seen h.laid hother,
      deadline_seen h.laid' hother', h.theirs, hdelay, Registration.id_of_veil hv]

theorem Alike.status? (h : Alike hidden waits waits' c c') (hne : key ≠ hidden) :
    c.status? key = c'.status? key := by
  unfold Coordinator.status?
  obtain ⟨e, e'⟩ | ⟨r, r', e, e', hv⟩ := h.find? key <;> rw [e, e']
  · rfl
  · have hkey : r.key ≠ hidden := (find?_mem e).2 ▸ hne
    rw [Option.map_some, Option.map_some, h.gates,
      Registration.eq_of_veil_other (·.status c'.gates) hkey hv fun _ => rfl]

end Coordinator

namespace Simulation

/-! ### Two simulations -/

/-- The same step in two simulations, but for how the runs of a key go. -/
structure Moment.SameBut (hidden : String) (m m' : Moment) : Prop where
  step : m.step.SameBut hidden m'.step
  /-- A handle that is cleaned up is the same one. -/
  handle : ∀ n, m.step = .operation (.cleanup n) → m.world.handles[n]? = m'.world.handles[n]?

/-- In two worlds everything is the same that is about other keys than one. -/
structure World.SameBesides (hidden : String) (w w' : World) : Prop where
  time : w.now = w'.now
  /-- When runs began and ended, and how, since the last look. -/
  notes : w.notes.filter (!·.isOf hidden) = w'.notes.filter (!·.isOf hidden)
  /-- Which runs are going on. -/
  runs : w.system.runs.filter (·.key != hidden) = w'.system.runs.filter (·.key != hidden)
  draws : w.system.coordinator.draws = w'.system.coordinator.draws
  gates : w.system.coordinator.gates = w'.system.coordinator.gates
  status : ∀ key ≠ hidden, w.system.coordinator.status? key = w'.system.coordinator.status? key
  plans : ∀ key ≠ hidden, w.system.coordinator.plan? key = w'.system.coordinator.plan? key

variable {hidden : String} {w w' u u' : World} {s s' : Step} {ms ms' : List Moment}

theorem Twins.sameBesides (h : Twins hidden w w') : w.SameBesides hidden w' where
  time := h.now
  notes := h.stage.notes
  runs := h.stage.runs
  draws := h.stage.coordinators.draws
  gates := h.stage.coordinators.gates
  status := fun _ hne => h.stage.coordinators.status? hne
  plans := fun _ hne => h.stage.coordinators.plan? hne

/-- Steps that are the same agree on how long time is to pass. -/
theorem Step.SameBut.duration? (h : s.SameBut hidden s') : s.duration? = s'.duration? := by
  cases h <;> rfl

/-- Cleaning up gives out no handle and takes none away. -/
theorem handles_cleanup (w : World) (n : Nat) :
    (w.step (.operation (.cleanup n))).1.handles = w.handles := by
  unfold World.step World.perform
  dsimp only
  split <;> rfl

/-- The same step leaves twins. -/
theorem Twins.takes (h : Twins hidden w w') {answer answer' : Answer} (ht : w.Takes s answer u)
    (ht' : w'.Takes s' answer' u')
    (hs : Moment.SameBut hidden ⟨s, answer, u⟩ ⟨s', answer', u'⟩) : Twins hidden u u' := by
  have hd := hs.step.duration?
  dsimp only at hd
  cases ht with
  | does hnone =>
      cases ht' with
      | does hnone' =>
          refine h.step hs.step hnone ?_
          rintro n rfl
          have hhandle := hs.handle n rfl
          -- The other step cannot be a registration, so it is the same cleanup.
          obtain ⟨-⟩ : s' = .operation (.cleanup n) := by
            cases hs.step
            rfl
          rwa [handles_cleanup, handles_cleanup] at hhandle
      | passes hsome' => exact absurd (hnone.symm.trans (hd.trans hsome')) (by simp)
  | passes hsome ha =>
      cases ht' with
      | does hnone' => exact absurd (hsome.symm.trans (hd.trans hnone')) (by simp)
      | passes hsome' ha' =>
          obtain rfl := Option.some.inj (hsome.symm.trans (hd.trans hsome'))
          rw [← h.now] at ha' ⊢
          exact h.playUntil ha ha'

/-- Simulations that begin in twins and take the same steps go through twins. -/
theorem Twins.plays (h : Twins hidden w w') (hp : w.Plays ms) (hp' : w'.Plays ms')
    (hs : List.Forall₂ (Moment.SameBut hidden) ms ms') :
    List.Forall₂ (fun m m' => Twins hidden m.world m'.world) ms ms' := by
  induction hs generalizing w w' with
  | nil => exact .nil
  | cons hm _ ih =>
      cases hp with
      | cons ht hrest =>
          cases hp' with
          | cons ht' hrest' =>
              have htwins := h.takes ht ht' hm
              exact .cons htwins (ih (htwins.look _ _) hrest hrest')

/--
Keys are isolated: if two simulations take the same steps, but for how the runs of one key go,
then after each step everything that is about other keys is the same in both.
-/
theorem keys_isolated {mode : Mode} {config : CoordinatorConfig} {draws : List Nat}
    (hp : (World.new mode config draws).Plays ms) (hp' : (World.new mode config draws).Plays ms')
    (hs : List.Forall₂ (Moment.SameBut hidden) ms ms') :
    List.Forall₂ (fun m m' => m.world.SameBesides hidden m'.world) ms ms' :=
  ((Twins.new hidden mode config draws).plays hp hp' hs).imp fun _ _ h => h.sameBesides

/-- Two polls, the runs of the first of which go by a script, and an outage. -/
def trial (c : Call) : List Step := [
  .operation (.register { key := "a", interval := .ofSeconds 3 } [c]),
  .operation (.register { key := "b", interval := .ofSeconds 5 } []),
  .advance (.ofSeconds 2),
  .operation .pauseHealth,
  .operation (.resumeHealth true),
  .advance (.ofSeconds 10)]

/-- How the runs of a key have ended after each step of a trial. -/
def outcomes (key : String) (c : Call) : List (Option (Nat × Nat)) :=
  ((World.new .coordinator {} [700, 1300]).moments (trial c)).map fun m =>
    (m.world.system.coordinator.status? key).map fun s => (s.runs, s.failures)

/-- The first poll takes its time in one trial and panics at once in the other. -/
theorem keys_isolated_trial :
    outcomes "a" (.mk (.ofSeconds 4) .ok [] []) ≠ outcomes "a" (.mk .zero .panicAtOnce [] []) ∧
    List.Forall₂ (fun m m' => m.world.SameBesides "a" m'.world)
      ((World.new .coordinator {} [700, 1300]).moments (trial (.mk (.ofSeconds 4) .ok [] [])))
      ((World.new .coordinator {} [700, 1300]).moments (trial (.mk .zero .panicAtOnce [] []))) := by
  refine ⟨by decide +kernel, keys_isolated (plays_moments (by decide +kernel))
    (plays_moments (by decide +kernel)) ?_⟩
  have hsame : ∀ {s : Step} {answer answer' : Answer} {w w' : World}, s.isPlain = true →
      (∀ n, s ≠ .operation (.cleanup n)) → Moment.SameBut "a" ⟨s, answer, w⟩ ⟨s, answer', w'⟩ :=
    fun hplain hno => ⟨.same hplain, fun n hn => absurd hn (hno n)⟩
  refine .cons ⟨.calls rfl rfl rfl, by simp⟩
    (.cons ?_ (.cons ?_ (.cons ?_ (.cons ?_ (.cons ?_ .nil)))))
  all_goals exact hsame rfl (by simp)

end Simulation

end FeedPoller
