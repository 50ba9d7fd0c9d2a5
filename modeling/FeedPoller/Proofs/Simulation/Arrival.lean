/-
Time always comes to the end of a step.

Letting time pass is bounded by a number of turns, and a simulation is worth nothing if the
number runs out.  Here it is shown that some number always suffices, as long as runs perform no
operations.  Time stops only where something is due, and it goes on as soon as nothing is.  So
the question is whether everything can be dealt with that is due at one point in time, since
turns make other things due.

There is an order in this.  A monitor's turn may wake followers, a follower's turn may wake the
listener and ask for runs, the listener's may ask for runs, and runs wake nobody.  What
a turn makes due is thus of a lower rank than what had the turn, with two exceptions.  A monitor
that is far behind may have to go on where it stopped, but then it is not as far behind as
before.  And the end of a run may make the timer due that was asked for meanwhile, but then the
request is no more.  With a count for each rank, and with the monitors' arrears before them
and the coordinator's backlog at the end, the counts go down in lexicographic order.
-/
import FeedPoller.Proofs.Isolation.Steps
import FeedPoller.Proofs.Poll.Backlog
import Mathlib.Order.RelClasses

namespace FeedPoller

open Simulation

/-! ### Monitors -/

namespace Monitor

variable {m : Monitor} {now : Instant}

/--
A bound for the turns that a monitor may take at a point in time: two for each probe that is
due, one to begin it and one to end it, and one more to find that none is.
-/
def arrears (m : Monitor) (now : Instant) : Nat :=
  match m.phase with
  | .ended => 0
  | .waiting => 2 * (now.nanos + 1 - m.due.nanos) + 1
  | .probing => 2 * (now.nanos + 1 - m.due.nanos) + 2

theorem endProbe_arrears (hp : m.phase = .probing) (available : Bool) :
    (m.endProbe available).arrears now < m.arrears now := by
  unfold endProbe
  rw [hp]
  dsimp only
  split <;> simp [arrears, hp]

/-- A monitor that has its turn waits for later, or is not as far behind as before. -/
theorem beginProbe_cases (hp : m.phase = .waiting) (now : Instant) :
    ((m.beginProbe now).phase = .waiting ∧ now < (m.beginProbe now).due) ∨
    ((m.beginProbe now).phase ≠ .waiting ∧ (m.beginProbe now).arrears now < m.arrears now) := by
  unfold beginProbe
  rw [hp]
  dsimp only
  split
  · exact Or.inr ⟨by simp, by simp [arrears, hp]⟩
  · next hinterval =>
      have hpos : 0 < m.interval.nanos := by
        simpa [Duration.isZero, Nat.pos_iff_ne_zero] using hinterval
      split
      · next hdue =>
          have hdue : m.due.nanos ≤ now.nanos := hdue
          have hnext : m.due.nanos < (m.nextDue now).nanos := by
            unfold nextDue
            split
            · show m.due.nanos < now.nanos + m.interval.nanos
              omega
            · exact Nat.lt_add_of_pos_right hpos
          refine Or.inr ⟨by simp, ?_⟩
          simp only [arrears, hp]
          omega
      · next hnot => exact Or.inl ⟨hp, Nat.lt_of_not_le hnot⟩

end Monitor

/-! ### Followers and the listener leave the clocks alone -/

namespace Coordinator

theorem refresh_clock (c : Coordinator) : c.refresh.1.clock = c.clock := by
  unfold refresh
  split
  · rfl
  · exact foldl_eq (·.clock) (fun _ _ => congrArg (·.2.1) schedule_setting) _ c

theorem resumeWhere_clock (c : Coordinator) (applies : Registration → Bool) (jitter : Bool) :
    (c.resumeWhere applies jitter).clock = c.clock :=
  foldl_eq (f := resumeOne jitter) (·.clock) (fun _ _ => congrArg (·.2.1) resumeOne_setting) _ c

theorem suspendWhere_clock (c : Coordinator) (applies : Registration → Bool) :
    (c.suspendWhere applies).clock = c.clock :=
  foldl_eq (f := suspend) (·.clock) (fun _ _ => rfl) _ c

theorem setBackendAvailable_clock (c : Coordinator) (available : Bool) :
    (c.setBackendAvailable available).1.clock = c.clock := by
  unfold setBackendAvailable
  split
  · rfl
  · split
    · exact resumeWhere_clock _ _ _
    · exact suspendWhere_clock _ _

theorem setAuthenticated_clock (c : Coordinator) (authenticated : Bool) :
    (c.setAuthenticated authenticated).1.clock = c.clock := by
  unfold setAuthenticated
  split
  · rfl
  · split
    · exact resumeWhere_clock _ _ _
    · exact suspendWhere_clock _ _

end Coordinator

theorem Follower.turn_clock (f : Follower) (c : Coordinator) (health auth : Watch) :
    (f.turn c health auth).2.clock = c.clock := by
  have hstart : c.clock = c.clock ∧ c.clock = c.clock := ⟨rfl, rfl⟩
  exact (turn_congr (R := fun x y => x.clock = c.clock ∧ y.clock = c.clock)
    (fun h v => ⟨(Coordinator.setBackendAvailable_clock _ v).trans h.1,
      (Coordinator.setBackendAvailable_clock _ v).trans h.2⟩)
    (fun h v => ⟨(Coordinator.setAuthenticated_clock _ v).trans h.1,
      (Coordinator.setAuthenticated_clock _ v).trans h.2⟩) hstart f health auth).2.1

namespace Simulation

/-- A task makes only tasks of lower ranks due. -/
def Task.rank : Task → Nat
  | .endRun .. => 0
  | .listener => 1
  | .follower _ => 2
  | .monitor _ => 3

namespace World

variable {w u v : World} {rank : Nat}

/-- How far all monitors are behind. -/
def arrears (w : World) : Nat :=
  (w.monitors.map (·.monitor.arrears w.now)).foldr Nat.add 0

/-- How many tasks of a rank are due. -/
def pressing (w : World) (rank : Nat) : Nat :=
  w.waiting.countP fun k => decide (k.due ≤ w.now) && k.task.rank == rank

/-! ### What makes nothing due of a rank or above -/

/-- One world comes from another at the same time, and nothing more is due of a rank or above. -/
structure Calm (rank : Nat) (w u : World) : Prop where
  now : u.now = w.now
  arrears : u.arrears = w.arrears
  pressing : ∀ n, rank ≤ n → u.pressing n ≤ w.pressing n

theorem Calm.trans (h : Calm rank w u) (h' : Calm rank u v) : Calm rank w v :=
  ⟨h'.now.trans h.now, h'.arrears.trans h.arrears,
    fun n hn => Nat.le_trans (h'.pressing n hn) (h.pressing n hn)⟩

theorem Calm.mono {rank' : Nat} (h : Calm rank w u) (hle : rank ≤ rank') : Calm rank' w u :=
  ⟨h.now, h.arrears, fun n hn => h.pressing n (Nat.le_trans hle hn)⟩

theorem calm_of_eq (hnow : u.now = w.now) (hmonitors : u.monitors = w.monitors)
    (hwaiting : u.waiting = w.waiting) : Calm rank w u where
  now := hnow
  arrears := by rw [World.arrears, World.arrears, hnow, hmonitors]
  pressing := fun n _ => Nat.le_of_eq (by rw [World.pressing, World.pressing, hnow, hwaiting])

theorem Calm.refl (w : World) : Calm rank w w := calm_of_eq rfl rfl rfl

/-- A task that waits is not due if it waits for later. -/
theorem calm_wait (due : Instant) {task : Task} (h : task.rank < rank ∨ w.now < due) :
    Calm rank w (w.wait due task) where
  now := rfl
  arrears := rfl
  pressing := by
    intro n hn
    have hnot : (decide (due ≤ w.now) && task.rank == n) = false := by
      rcases h with hrank | hdue
      · simp [show task.rank ≠ n by omega]
      · simp [show ¬ due ≤ w.now from Nat.not_le.mpr hdue]
    show (w.waiting ++ [_]).countP (fun k : Wait => decide (k.due ≤ w.now) && k.task.rank == n) ≤ _
    rw [List.countP_append, List.countP_singleton, hnot]
    exact Nat.le_refl _

theorem calm_wakeListener : Calm 2 w w.wakeListener := by
  unfold wakeListener
  dsimp only
  split
  · exact .refl w
  · exact calm_wait w.now (Or.inl (by decide))

theorem calm_wakeFollower (index : Nat) : Calm 3 w (w.wakeFollower index) := by
  unfold wakeFollower
  dsimp only
  split
  · exact .refl w
  · exact calm_wait w.now (Or.inl (by simp [Task.rank]))

theorem calm_wakeFollowersOf (source : Source) : Calm 3 w (w.wakeFollowersOf source) := by
  unfold wakeFollowersOf
  generalize w.followers.zipIdx = l
  induction l generalizing w with
  | nil => exact .refl w
  | cons entry rest ih =>
      rw [List.foldl_cons]
      refine Calm.trans ?_ ih
      dsimp only
      split
      · exact calm_wakeFollower _
      · exact .refl w

theorem calm_noticeRelease : Calm 2 w w.noticeRelease := by
  have hclosing : ∀ w : World, Calm 2 w w.noticeClosing := by
    intro w
    unfold noticeClosing
    split
    · exact .refl w
    · split
      · exact .refl w
      · split
        · exact .refl w
        · exact calm_wakeListener
  unfold noticeRelease
  refine Calm.trans ?_ (hclosing _)
  split
  · exact .refl w
  · exact calm_of_eq rfl rfl rfl

/-- Watched values are no monitor's business. -/
theorem calm_modifyWatch (source : Source) (f : Watch → Watch) :
    Calm rank w (w.modifyWatch source f) := by
  cases source with
  | watch i => exact calm_of_eq rfl rfl rfl
  | monitor i =>
      refine ⟨rfl, congrArg (List.foldr Nat.add 0) (List.ext_getElem? fun j => ?_),
        fun n _ => Nat.le_refl _⟩
      show ((w.monitors.modify i _).map _)[j]? = (w.monitors.map _)[j]?
      rw [List.getElem?_map, List.getElem?_map, List.getElem?_modify]
      cases w.monitors[j]? with
      | none => rfl
      | some t =>
          show some _ = some _
          split <;> rfl

/-! ### Monitors' turns -/

/-- The monitors are not as far behind as before. -/
structure CaughtUp (w u : World) : Prop where
  now : u.now = w.now
  arrears : u.arrears < w.arrears

theorem CaughtUp.trans (h : CaughtUp w u) (h' : CaughtUp u v) : CaughtUp w v :=
  ⟨h'.now.trans h.now, Nat.lt_trans h'.arrears h.arrears⟩

theorem CaughtUp.calm (h : CaughtUp w u) (h' : Calm rank u v) : CaughtUp w v :=
  ⟨h'.now.trans h.now, h'.arrears ▸ h.arrears⟩

theorem foldr_map_set {α : Type} (f : α → Nat) {a b : α} : ∀ {l : List α} {i : Nat},
    l[i]? = some a →
      ((l.set i b).map f).foldr Nat.add 0 + f a = (l.map f).foldr Nat.add 0 + f b := by
  intro l
  induction l with
  | nil => exact fun h => absurd h (by simp)
  | cons x rest ih =>
      intro i h
      cases i with
      | zero =>
          obtain rfl : x = a := Option.some.inj h
          simp only [List.set_cons_zero, List.map_cons, List.foldr_cons, Nat.add_eq]
          omega
      | succ i =>
          have hrest := ih (i := i) h
          simp only [List.set_cons_succ, List.map_cons, List.foldr_cons, Nat.add_eq]
          omega

/-- If one monitor has caught up, all have together. -/
theorem caughtUp_set {index : Nat} {t t' : MonitorTask} (ht : w.monitors[index]? = some t)
    (hlt : t'.monitor.arrears w.now < t.monitor.arrears w.now) (hnow : u.now = w.now)
    (hu : u.monitors = w.monitors.set index t') : CaughtUp w u where
  now := hnow
  arrears := by
    have hsum := foldr_map_set (fun t : MonitorTask => t.monitor.arrears w.now) (b := t') ht
    rw [World.arrears, World.arrears, hnow, hu]
    omega

theorem endProbe_caughtUp {index : Nat} {t : MonitorTask} (ht : w.monitors[index]? = some t)
    (hp : t.monitor.phase = .probing) (available : Bool) :
    CaughtUp w (w.endProbe index t available) := by
  unfold endProbe
  dsimp only
  split
  · exact caughtUp_set ht (Monitor.endProbe_arrears hp available) rfl rfl
  · refine CaughtUp.calm ?_ (calm_wakeFollowersOf (.monitor index))
    exact caughtUp_set ht (Monitor.endProbe_arrears hp available) rfl rfl

/-- A monitor catches up or has nothing to do before later, unless it may do nothing at all. -/
theorem runMonitor_cases (index fuel : Nat) (w : World) :
    CaughtUp w (w.runMonitor index fuel) ∨ Calm 3 w (w.runMonitor index fuel) ∨
      (fuel = 0 ∧ w.runMonitor index fuel = w.wait w.now (.monitor index)) := by
  induction fuel generalizing w with
  | zero => exact Or.inr (Or.inr ⟨rfl, rfl⟩)
  | succ fuel ih =>
      -- A monitor that has caught up with something goes on, and may run out of turns then.
      have hgoes : ∀ {u : World}, CaughtUp w u → CaughtUp w (u.runMonitor index fuel) := by
        intro u hu
        rcases ih u with h | h | ⟨-, e⟩
        · exact hu.trans h
        · exact hu.calm h
        · rw [e]
          exact ⟨hu.now, hu.arrears⟩
      unfold runMonitor
      cases ht : w.monitors[index]? with
      | none => exact Or.inr (Or.inl (.refl w))
      | some t =>
          dsimp only
          cases hp : t.monitor.phase with
          | ended => exact Or.inr (Or.inl (.refl w))
          | probing => exact Or.inl (hgoes (endProbe_caughtUp ht hp _))
          | waiting =>
              dsimp only
              obtain ⟨hphase, hlater⟩ | ⟨hphase, hlt⟩ := Monitor.beginProbe_cases hp w.now
              · rw [hphase]
                exact Or.inr (Or.inl (calm_wait _ (Or.inr hlater)))
              · left
                cases hnext : (t.monitor.beginProbe w.now).phase with
                | waiting => exact absurd hnext hphase
                | ended =>
                    refine CaughtUp.calm ?_ (calm_wakeFollowersOf (.monitor index))
                    have hset : CaughtUp w { w with
                        monitors := w.monitors.set index { t with
                          monitor := t.monitor.beginProbe w.now } } :=
                      caughtUp_set ht hlt rfl rfl
                    exact hset
                | probing =>
                    have hset : CaughtUp w { w.note (monitorTag index) t.calls .probing with
                        monitors := w.monitors.set index { t with
                          monitor := t.monitor.beginProbe w.now, calls := t.calls + 1 } } :=
                      caughtUp_set ht hlt rfl rfl
                    dsimp only
                    split
                    · exact hgoes hset
                    · exact ⟨hset.now, hset.arrears⟩

/-! ### Turns of the listener and of followers -/

theorem hearSignals_calm (l : ListenerTask) (fuel : Nat) (w : World) :
    Calm rank w (w.hearSignals l fuel) := by
  induction fuel generalizing w l with
  | zero => exact .refl w
  | succ fuel ih =>
      unfold hearSignals
      split
      · exact calm_of_eq rfl rfl rfl
      · split
        · dsimp only
          split
          · refine Calm.trans ?_ (ih _ _)
            refine calm_of_eq ?_ rfl rfl
            have hclock : ∀ s : System, (s.step .refresh).now = s.now := by
              intro s
              rw [System.step, call_eq]
              cases s.alive with
              | false => rfl
              | true => exact congrArg Clock.now (Coordinator.refresh_clock _)
            exact hclock w.system
          · exact calm_of_eq rfl rfl rfl
        · split
          · exact .refl w
          · exact calm_of_eq rfl rfl rfl

theorem runListener_calm (w : World) : Calm rank w w.runListener := by
  unfold runListener
  split
  · exact .refl w
  · split
    · exact calm_of_eq rfl rfl rfl
    · exact hearSignals_calm _ _ w

theorem runFollower_calm (w : World) (index : Nat) : Calm 2 w (w.runFollower index) := by
  unfold runFollower
  split
  · exact .refl w
  · next t _ =>
      split
      · exact .refl w
      · have hclock := t.follower.turn_clock w.system.coordinator (w.watchOf t.health)
          (w.watchOf t.auth)
        have hset : Calm 2 w { w.withCoordinator (t.follower.turn w.system.coordinator
            (w.watchOf t.health) (w.watchOf t.auth)).2 with
            followers := w.followers.modify index fun t' => { t' with
              follower := (t.follower.turn w.system.coordinator (w.watchOf t.health)
                (w.watchOf t.auth)).1
              running := !(t.follower.turn w.system.coordinator (w.watchOf t.health)
                (w.watchOf t.auth)).1.finished } } :=
          calm_of_eq (congrArg Clock.now hclock) rfl rfl
        dsimp only
        split
        · exact hset
        · exact ((hset.trans (calm_modifyWatch t.health _)).trans (calm_modifyWatch t.auth _)).trans
            calm_noticeRelease

/-! ### Runs -/

/-- Nothing more is due than before, and the coordinator has no more to do at once. -/
structure Mild (w u : World) : Prop where
  calm : Calm 0 w u
  backlog : u.system.coordinator.backlog ≤ w.system.coordinator.backlog

theorem Mild.trans (h : Mild w u) (h' : Mild u v) : Mild w v :=
  ⟨h.calm.trans h'.calm, Nat.le_trans h'.backlog h.backlog⟩

theorem mild_of_eq (hs : u.system = w.system) (hmonitors : u.monitors = w.monitors)
    (hwaiting : u.waiting = w.waiting) : Mild w u :=
  ⟨calm_of_eq (by rw [World.now, hs]; rfl) hmonitors hwaiting, Nat.le_of_eq (by rw [hs])⟩

theorem mild_finish (hs : w.system.Sound) (hf : w.system.coordinator.Faultless) (id : Nat)
    (failed : Bool) : Mild w { w with system := w.system.finish id failed } :=
  ⟨calm_of_eq ((hs.outcome (.finish id failed)).now_eq hs (by simp)) rfl rfl,
    hs.finish_backlog hf id failed⟩

theorem mild_act (w : World) (tag : String) (call : Nat) (atEnd : Bool) {acts : List Act}
    (hidle : acts.all Act.isIdle = true) : Mild w (w.act tag call atEnd acts) := by
  rw [act_eq w tag call atEnd hidle]
  exact mild_of_eq rfl rfl rfl

theorem mild_endRun (hs : w.system.Sound) (hf : w.system.coordinator.Faultless) (run : Run)
    (tag : String) (call : Nat) {progress : Progress} (hquiet : progress.isQuiet = true) :
    Mild w (w.endRun run tag call progress) := by
  cases progress with
  | call c =>
      have hidle := (Call.idle_of_quiet hquiet).2
      have hsame := system_act w tag call true hidle
      refine (mild_act w tag call true hidle).trans ?_
      refine Mild.trans ?_ (mild_finish (w := (w.act tag call true c.actsEnd).note tag call
        (.ended (some c.outcome))) (hsame ▸ hs) (hsame ▸ hf) run.id c.outcome.isFailure)
      exact mild_of_eq rfl rfl rfl
  | fetch f =>
      have hnote : Mild w (w.note tag call (.ended none)) := mild_of_eq rfl rfl rfl
      have hfinish := mild_finish (w := w.note tag call (.ended none)) hs hf run.id
        f.outcome.isFailure
      refine (hnote.trans hfinish).trans ?_
      exact mild_of_eq rfl rfl rfl

theorem mild_continueRun (hs : w.system.Sound) (hf : w.system.coordinator.Faultless) (run : Run)
    (tag : String) (call : Nat) (work : Duration) {progress : Progress}
    (hquiet : progress.isQuiet = true) : Mild w (w.continueRun run tag call work progress) := by
  unfold continueRun
  split
  · exact mild_endRun hs hf run tag call hquiet
  · next hwork =>
      have hpos : 0 < work.nanos := by simpa [Duration.isZero, Nat.pos_iff_ne_zero] using hwork
      exact ⟨calm_wait _ (Or.inr (Nat.lt_add_of_pos_right hpos)), Nat.le_refl _⟩

theorem mild_beginRun (h : Sane w.system w.callbacks w.waiting) (run : Run) :
    Mild w (w.beginRun run) := by
  unfold beginRun
  cases hfind : w.callbacks.find? (·.id == run.id) with
  | none => exact mild_of_eq rfl rfl rfl
  | some b =>
      have hb := List.mem_of_find?_eq_some hfind
      dsimp only
      cases hscript : b.script with
      | calls cs =>
          have hc := h.quiet_call hb hscript b.calls
          have hidle := (Call.idle_of_quiet hc).1
          have hnote : Mild w (World.note { w with callbacks := counted w.callbacks run.id } b.tag
              b.calls .started) := mild_of_eq rfl rfl rfl
          dsimp only
          split
          · refine hnote.trans (mild_finish ?_ ?_ run.id true)
            · exact h.sound
            · exact h.faultless
          · refine (hnote.trans (mild_act _ b.tag b.calls false hidle)).trans
              (mild_continueRun ?_ ?_ run b.tag b.calls _ hc)
            · exact (system_act _ b.tag b.calls false hidle).symm ▸ h.sound
            · exact (system_act _ b.tag b.calls false hidle).symm ▸ h.faultless
      | fetches fs =>
          have hnote : Mild w (World.note { w with
              callbacks := counted w.callbacks run.id
              store := w.store.beginFetch run.key } b.tag b.calls .started) :=
            mild_of_eq rfl rfl rfl
          refine hnote.trans (mild_continueRun ?_ ?_ run b.tag b.calls _ rfl)
          · exact h.sound
          · exact h.faultless

/-! ### Turns -/

/-- What there is to be done at a point in time, the most far-reaching things first. -/
def rush (w : World) : Nat × Nat × Nat × Nat × Nat :=
  (w.arrears, w.pressing 3, w.pressing 2, w.pressing 1,
    w.pressing 0 + w.system.coordinator.backlog)

/-- There is less to be done in one world than in another at the same time. -/
structure Calmer (u w : World) : Prop where
  now : u.now = w.now
  rush : Prod.Lex Nat.lt (Prod.Lex Nat.lt (Prod.Lex Nat.lt (Prod.Lex Nat.lt Nat.lt))) u.rush w.rush

theorem calmer_wf : WellFounded Calmer :=
  have hlt : WellFounded Nat.lt := Nat.lt_wfRel.wf
  Subrelation.wf (fun h => h.rush)
    (InvImage.wf rush (hlt.prod_lex (hlt.prod_lex (hlt.prod_lex (hlt.prod_lex hlt)))))

/-- The world when the task that has waited longest of those that are due has its turn. -/
def taken (w : World) : World :=
  { w with waiting := w.waiting.eraseP fun k => decide (k.due ≤ w.now) }

/-- A task that has its turn is one less that is due. -/
theorem pressing_taken (h : w.Laid) {k : Wait}
    (hf : w.agenda.find? (·.isDue w.now) = some (.wait k)) (n : Nat) :
    w.taken.pressing n + (if k.task.rank = n then 1 else 0) = w.pressing n := by
  obtain ⟨hdue, pre, post, hl, hpre⟩ := List.find?_eq_some_iff_append.mp hf
  have hpre : ∀ e ∈ pre, e.isDue w.now = false := by simpa using hpre
  have hlays : Lays (pre ++ .wait k :: post) w.system.coordinator.timers w.waiting
      w.system.coordinator.armed := hl ▸ h
  have hk : k.due ≤ w.now := of_decide_eq_true hdue
  show (w.waiting.eraseP _).countP (fun k : Wait => decide (k.due ≤ w.now) && k.task.rank == n) + _
    = w.waiting.countP _
  rw [(hlays.first_wait hpre).1, List.eraseP_append_right _ (by simpa using not_due_waits hpre),
    List.eraseP_cons_of_pos (by simpa using hk), List.countP_append, List.countP_append,
    List.countP_cons]
  simp only [hk, decide_true, Bool.true_and, beq_iff_eq]
  omega

theorem calm_taken (h : w.Laid) {k : Wait}
    (hf : w.agenda.find? (·.isDue w.now) = some (.wait k)) : Calm 0 w w.taken :=
  ⟨rfl, rfl, fun n _ => by have := pressing_taken h hf n; omega⟩

/-- If nothing more is due, it is enough that there is less to be done by runs. -/
theorem Calm.calmer (h : Calm 0 w u)
    (hless : u.pressing 0 + u.system.coordinator.backlog
      < w.pressing 0 + w.system.coordinator.backlog) : Calmer u w where
  now := h.now
  rush := .right' _ (Nat.le_of_eq h.arrears) (.right' _ (h.pressing 3 (Nat.zero_le 3))
    (.right' _ (h.pressing 2 (Nat.zero_le 2)) (.right' _ (h.pressing 1 (Nat.zero_le 1)) hless)))

/-- The turn of a task leaves less to be done, whatever it may make due. -/
theorem runTask_calmer (hlaid : w.Laid) (hs : w.system.Sound)
    (hfault : w.system.coordinator.Faultless)
    {k : Wait} (hf : w.agenda.find? (·.isDue w.now) = some (.wait k))
    (hproper : k.task.IsProper w.system) : Calmer (w.taken.runTask k.task) w := by
  have htaken := calm_taken hlaid hf
  have hless := pressing_taken hlaid hf
  generalize k.task = task at hproper hless ⊢
  cases task with
  | endRun run tag call progress =>
      have hrun := mild_endRun (w := w.taken) hs hfault run tag call hproper.2.2
      have hleft : w.taken.pressing 0 + 1 = w.pressing 0 := hless 0
      have hbacklog : _ ≤ w.system.coordinator.backlog := hrun.backlog
      refine (htaken.trans hrun.calm).calmer ?_
      have hpress := hrun.calm.pressing 0 (Nat.le_refl 0)
      show (w.taken.endRun run tag call progress).pressing 0 + _ < _
      omega
  | listener =>
      have hrun : Calm 0 w.taken w.taken.runListener := runListener_calm w.taken
      have hcalm := htaken.trans hrun
      have hleft : w.taken.pressing 1 + 1 = w.pressing 1 := hless 1
      have hpress := hrun.pressing 1 (Nat.zero_le 1)
      refine ⟨hcalm.now, .right' _ (Nat.le_of_eq hcalm.arrears)
        (.right' _ (hcalm.pressing 3 (Nat.zero_le 3))
          (.right' _ (hcalm.pressing 2 (Nat.zero_le 2)) (.left _ _ ?_)))⟩
      show w.taken.runListener.pressing 1 < w.pressing 1
      omega
  | follower index =>
      have hrun := runFollower_calm w.taken index
      have hcalm := (htaken.mono (Nat.zero_le 2)).trans hrun
      have hleft : w.taken.pressing 2 + 1 = w.pressing 2 := hless 2
      have hpress := hrun.pressing 2 (Nat.le_refl 2)
      refine ⟨hcalm.now, .right' _ (Nat.le_of_eq hcalm.arrears)
        (.right' _ (hcalm.pressing 3 (by decide)) (.left _ _ ?_))⟩
      show (w.taken.runFollower index).pressing 2 < w.pressing 2
      omega
  | monitor index =>
      have hleft : w.taken.pressing 3 + 1 = w.pressing 3 := hless 3
      obtain hup | hcalm | ⟨hzero, -⟩ := runMonitor_cases index monitorTurns w.taken
      · exact ⟨hup.now, .left _ _ hup.arrears⟩
      · have hpress := hcalm.pressing 3 (Nat.le_refl 3)
        refine ⟨hcalm.now, .right' _ (Nat.le_of_eq hcalm.arrears) (.left _ _ ?_)⟩
        show (w.taken.runMonitor index monitorTurns).pressing 3 < w.pressing 3
        omega
      · exact absurd hzero (by decide)

end World

variable {hidden : String} {w : World} {entry : Entry}

/-- Whatever has its turn, there is less to be done at the time. -/
theorem Twins.give_calmer (h : Twins hidden w w)
    (hf : w.agenda.find? (·.isDue w.now) = some entry) : (w.give entry).Calmer w := by
  have hsane := h.stage.sane
  have hlaid : w.Laid := h.stage.coordinators.laid
  have hmem := List.mem_of_find?_eq_some hf
  have hdue := List.find?_some hf
  cases entry with
  | timer t =>
      have hfired := hsane.step (e := .fire t.number) trivial
      have hnow := (hsane.sound.outcome (.fire t.number)).now_eq hsane.sound (by simp)
      have hless := hsane.sound.fire_backlog (hlaid.mem_timers.mpr hmem) (of_decide_eq_true hdue)
      have hcalm : World.Calm 0 w { w with system := (w.system.fire t.number).1 } :=
        World.calm_of_eq hnow rfl rfl
      have hrun : World.Mild { w with system := (w.system.fire t.number).1 } (w.fire t.number) := by
        rw [fire_eq]
        cases (w.system.fire t.number).2 with
        | none => exact World.mild_of_eq rfl rfl rfl
        | some run => exact World.mild_beginRun hfired run
      have hturn := hcalm.trans hrun.calm
      exact hturn.calmer (Nat.add_lt_add_of_le_of_lt (hturn.pressing 0 (Nat.le_refl 0))
        (Nat.lt_of_le_of_lt hrun.backlog hless))
  | wait k =>
      exact World.runTask_calmer hlaid hsane.sound hsane.faultless hf
        (hsane.tasks k (hlaid.mem_waits.mpr hmem))

/-! ### Arriving -/

/-- What has its turn in a world that is its own twin leaves it one. -/
theorem Twins.give_self (h : Twins hidden w w) (hf : w.agenda.find? (·.isDue w.now) = some entry) :
    Twins hidden (w.give entry) (w.give entry) := by
  cases hown : entry.isOf hidden (w.system.coordinator.idOf? hidden) with
  | true => exact (h.give_own hf hown).symm.give_own hf hown
  | false => exact h.give hf hf rfl hown hown

/-- **Some fuel always suffices**: time comes to any point that lies ahead. -/
theorem Twins.arrives (h : Twins hidden w w) (target : Instant) :
    ∃ fuel, (World.playUntil target fuel w).Arrived target := by
  -- Turns leave less to be done, and time that passes leaves less time.
  induction hleft : target.nanos - w.now.nanos using Nat.strong_induction_on generalizing w with
  | _ left later =>
      induction w using World.calmer_wf.induction with
      | _ w calmer =>
          cases hf : w.agenda.find? (·.isDue w.now) with
          | some entry =>
              have hturn : w.turn? = some (w.give entry) := by rw [h.turn?_eq, hf]; rfl
              have hcalmer := h.give_calmer hf
              obtain ⟨fuel, ha⟩ := calmer _ hcalmer (h.give_self hf) (by rw [hcalmer.now, hleft])
              exact ⟨fuel + 1, by rwa [World.playUntil_turn hturn]⟩
          | none =>
              have hrest : w.turn? = none := by rw [h.turn?_eq, hf]; rfl
              by_cases hthere : target ≤ w.now
              · exact ⟨0, hrest, hthere⟩
              · have hahead : w.now.nanos < target.nanos := Nat.lt_of_not_le hthere
                have hstop : w.now.nanos < (w.nextStop target).nanos :=
                  h.now_lt_nextStop hrest hahead
                obtain ⟨fuel, ha⟩ := later _ (by
                  show target.nanos -
                    (w.now.nanos + ((w.nextStop target).nanos - w.now.nanos)) < left
                  omega) (h.pass ⟨(w.nextStop target).nanos - w.now.nanos⟩) rfl
                exact ⟨fuel + 1, by rwa [World.playUntil_stop hrest hstop]⟩

/-! ### Playing a script -/

/-- A step that has been taken, what it answered, and the world after it. -/
structure Moment where
  step : Step
  answer : Answer
  world : World

/-- A step is taken at once, unless it lets time pass; then time has to come to the end of it. -/
inductive World.Takes (w : World) : Step → Answer → World → Prop
  | does {s : Step} (hd : s.duration? = none) : Takes w s (w.step s).2 (w.step s).1
  | passes {s : Step} {d : Duration} {fuel : Nat} (hd : s.duration? = some d)
      (ha : (World.playUntil (w.now.later d) fuel w).Arrived (w.now.later d)) :
      Takes w s .nothing (World.playUntil (w.now.later d) fuel w)

/-- A simulation: every step is followed by a look. -/
inductive World.Plays : World → List Moment → Prop
  | nil {w : World} : Plays w []
  | cons {w u : World} {s : Step} {answer : Answer} {rest : List Moment} (h : w.Takes s answer u)
      (hrest : (u.look answer).1.Plays rest) : Plays w (⟨s, answer, u⟩ :: rest)

/-- The moments of a script that is played with the fuel that there is. -/
def World.moments (w : World) : List Step → List Moment
  | [] => []
  | s :: rest => ⟨s, (w.step s).2, (w.step s).1⟩ :: ((w.step s).1.look (w.step s).2).1.moments rest

/-- Whether time always comes to the end of a step with the fuel that there is. -/
def World.arrives (w : World) : List Step → Bool
  | [] => true
  | s :: rest =>
    (s.duration?.all fun d =>
      (w.step s).1.turn?.isNone && decide (w.now.later d ≤ (w.step s).1.now)) &&
    ((w.step s).1.look (w.step s).2).1.arrives rest

theorem takes_step {w : World} {s : Step}
    (ha : ∀ d, s.duration? = some d → (w.step s).1.Arrived (w.now.later d)) :
    w.Takes s (w.step s).2 (w.step s).1 := by
  cases hd : s.duration? with
  | none => exact .does hd
  | some d =>
      cases s with
      | settle => exact .passes rfl (ha .zero rfl)
      | advance d => exact .passes rfl (ha d rfl)
      | _ => exact absurd hd (by simp [Step.duration?])

/-- What is played with the fuel that there is is a simulation if the fuel suffices. -/
theorem plays_moments {w : World} {script : List Step} (h : w.arrives script = true) :
    w.Plays (w.moments script) := by
  induction script generalizing w with
  | nil => exact .nil
  | cons s rest ih =>
      obtain ⟨hs, hrest⟩ := Bool.and_eq_true_iff.mp h
      refine .cons (takes_step fun d hd => ?_) (ih hrest)
      rw [hd, Option.all_some, Bool.and_eq_true, Option.isNone_iff_eq_none, decide_eq_true_eq] at hs
      exact hs

/-- To play a script is to look at each of its moments. -/
theorem play_eq (mode : Mode) (config : CoordinatorConfig) (draws : List Nat) (script : List Step) :
    play mode config draws script
      = ((World.new mode config draws).moments script).map fun m => (m.world.look m.answer).2 := by
  have hfold : ∀ (script : List Step) (w : World) (looks : List Look),
      (script.foldl (fun x step =>
        (((x.1.step step).1.look (x.1.step step).2).1,
          ((x.1.step step).1.look (x.1.step step).2).2 :: x.2)) (w, looks)).2.reverse
        = looks.reverse ++ (w.moments script).map fun m => (m.world.look m.answer).2 := by
    intro script
    induction script with
    | nil => intro w looks; exact (List.append_nil _).symm
    | cons s rest ih =>
        intro w looks
        rw [List.foldl_cons, ih, List.reverse_cons, List.append_assoc]
        rfl
  exact hfold script _ []

/-- Taking a step comes to one thing only. -/
theorem World.Takes.unique {w u u' : World} {s : Step} {answer answer' : Answer}
    (h : w.Takes s answer u) (h' : w.Takes s answer' u') : answer = answer' ∧ u = u' := by
  cases h with
  | does hnone =>
      cases h' with
      | does => exact ⟨rfl, rfl⟩
      | passes hsome => exact absurd (hnone.symm.trans hsome) (by simp)
  | passes hsome ha =>
      cases h' with
      | does hnone => exact absurd (hnone.symm.trans hsome) (by simp)
      | passes hsome' ha' =>
          obtain rfl := Option.some.inj (hsome.symm.trans hsome')
          exact ⟨rfl, World.playUntil_unique ha ha'⟩

/-- A script is played in one way only. -/
theorem World.Plays.unique {w : World} {ms ms' : List Moment} (h : w.Plays ms) (h' : w.Plays ms')
    (hscript : ms.map (·.step) = ms'.map (·.step)) : ms = ms' := by
  induction h generalizing ms' with
  | nil =>
      cases h' with
      | nil => rfl
      | cons => exact absurd hscript (by simp)
  | cons ht _ ih =>
      cases h' with
      | nil => exact absurd hscript (by simp)
      | cons ht' hrest' =>
          obtain ⟨rfl, hrest⟩ := List.cons.inj hscript
          obtain ⟨rfl, rfl⟩ := ht.unique ht'
          rw [ih hrest' hrest]

/-- Every step that forces no gates can be taken, and leaves the world its own twin. -/
theorem Twins.exists_takes (h : Twins hidden w w) {s : Step} (hplain : s.isPlain = true) :
    ∃ answer u, w.Takes s answer u ∧ Twins hidden u u := by
  cases hd : s.duration? with
  | none => exact ⟨_, _, .does hd, h.step (.same hplain) hd fun _ _ => rfl⟩
  | some d =>
      obtain ⟨fuel, ha⟩ := h.arrives (w.now.later d)
      exact ⟨_, _, .passes hd ha, h.playUntil ha ha⟩

theorem Twins.exists_plays (h : Twins hidden w w) {script : List Step}
    (hplain : script.all Step.isPlain = true) : ∃ ms, w.Plays ms ∧ ms.map (·.step) = script := by
  induction script generalizing w with
  | nil => exact ⟨[], .nil, rfl⟩
  | cons s rest ih =>
      obtain ⟨hs, hrest⟩ := Bool.and_eq_true_iff.mp hplain
      obtain ⟨answer, u, ht, hu⟩ := h.exists_takes hs
      obtain ⟨ms, hms, rfl⟩ := ih (hu.look answer answer) hrest
      exact ⟨⟨s, answer, u⟩ :: ms, .cons ht hms, rfl⟩

/--
**Every script is played in exactly one way**, if its runs perform no operations and nobody
forces the gates.  Nothing that is registered can keep a simulation from coming to its end.
-/
theorem existsUnique_plays (mode : Mode) (config : CoordinatorConfig) (draws : List Nat)
    {script : List Step} (hplain : script.all Step.isPlain = true) :
    ∃! ms, (World.new mode config draws).Plays ms ∧ ms.map (·.step) = script := by
  obtain ⟨ms, hms, hscript⟩ := (Twins.new "" mode config draws).exists_plays hplain
  exact ⟨ms, ⟨hms, hscript⟩, fun ms' h' => h'.1.unique hms (h'.2.trans hscript.symm)⟩

end Simulation

end FeedPoller
