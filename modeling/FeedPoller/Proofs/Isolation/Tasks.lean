/-
Turns of tasks in twins.

A turn of the veiled key's timer, or of the end of one of its runs, is taken in one world and
leaves it a twin of the other.  Every other turn is taken in both.  A run of another key has
the same callback in both and so goes the same way; what a listener, a follower or a monitor
does was never about a key.

Which turn comes next is decided by the agendas.  If the first entry whose time has come is
not the veiled key's on either side, it is the same on both (`Twins.turn`).
-/
import FeedPoller.Proofs.Isolation.Worlds

namespace FeedPoller

open Simulation

/-- Following is done in the same way to coordinators that stay alike when a session sets gates. -/
theorem Follower.turn_congr {R : Coordinator → Coordinator → Prop}
    (hhealth : ∀ {c c'}, R c c' → ∀ v, R (c.setBackendAvailable v).1 (c'.setBackendAvailable v).1)
    (hauth : ∀ {c c'}, R c c' → ∀ v, R (c.setAuthenticated v).1 (c'.setAuthenticated v).1)
    {c c' : Coordinator} (h : R c c') (f : Follower) (health auth : Watch) :
    (f.turn c health auth).1 = (f.turn c' health auth).1 ∧
      R (f.turn c health auth).2 (f.turn c' health auth).2 := by
  have hhear : ∀ {x x' : Follower × Coordinator}, x.1 = x'.1 ∧ R x.2 x'.2 →
      (x.1.hearHealth x.2 health).1 = (x'.1.hearHealth x'.2 health).1 ∧
        R (x.1.hearHealth x.2 health).2 (x'.1.hearHealth x'.2 health).2 := by
    rintro ⟨f, c⟩ ⟨_, c'⟩ ⟨rfl, h⟩
    unfold hearHealth
    dsimp only
    split
    · exact ⟨rfl, h⟩
    · exact ⟨rfl, hhealth h _⟩
    · exact ⟨rfl, h⟩
  have hhear' : ∀ {x x' : Follower × Coordinator}, x.1 = x'.1 ∧ R x.2 x'.2 →
      (x.1.hearAuth x.2 auth).1 = (x'.1.hearAuth x'.2 auth).1 ∧
        R (x.1.hearAuth x.2 auth).2 (x'.1.hearAuth x'.2 auth).2 := by
    rintro ⟨f, c⟩ ⟨_, c'⟩ ⟨rfl, h⟩
    unfold hearAuth
    dsimp only
    split
    · exact ⟨rfl, h⟩
    · exact ⟨rfl, hauth h _⟩
    · exact ⟨rfl, h⟩
  have hstart : (if f.started then (f, c) else f.start c health auth).1
        = (if f.started then (f, c') else f.start c' health auth).1 ∧
      R (if f.started then (f, c) else f.start c health auth).2
        (if f.started then (f, c') else f.start c' health auth).2 := by
    split
    · exact ⟨rfl, h⟩
    · exact ⟨rfl, hauth (hhealth h _) _⟩
  exact hhear' (hhear (hhear' (hhear hstart)))

namespace Simulation

variable {hidden : String} {w w' : World} {run : Run} {tag : String} {call : Nat} {acts : List Act}
  {progress : Progress}

/-! ### Runs -/

theorem Twins.act (h : Twins hidden w w') (tag : String) (call : Nat) (atEnd : Bool)
    (hidle : acts.all Act.isIdle = true) :
    Twins hidden (w.act tag call atEnd acts) (w'.act tag call atEnd acts) := by
  induction acts generalizing w w' with
  | nil => exact h
  | cons a rest ih =>
      obtain ⟨ha, hrest⟩ := Bool.and_eq_true_iff.mp hidle
      obtain ⟨name, _ | o⟩ := a
      · exact ih (h.note tag call (.acted name .notAnAct atEnd)) hrest
      · exact absurd ha (by simp [Act.isIdle])

theorem Twins.act_own (h : Twins hidden w w') (htag : keyOf? tag = some hidden) (call : Nat)
    (atEnd : Bool) (hidle : acts.all Act.isIdle = true) :
    Twins hidden (w.act tag call atEnd acts) w' := by
  induction acts generalizing w with
  | nil => exact h
  | cons a rest ih =>
      obtain ⟨ha, hrest⟩ := Bool.and_eq_true_iff.mp hidle
      obtain ⟨name, _ | o⟩ := a
      · exact ih (h.note_own htag call (.acted name .notAnAct atEnd)) hrest
      · exact absurd ha (by simp [Act.isIdle])

/-- Acts that perform nothing are only noted down. -/
theorem act_eq (w : World) (tag : String) (call : Nat) (atEnd : Bool)
    (hidle : acts.all Act.isIdle = true) :
    w.act tag call atEnd acts = { w with notes := (w.act tag call atEnd acts).notes } := by
  induction acts generalizing w with
  | nil => rfl
  | cons a rest ih =>
      obtain ⟨ha, hrest⟩ := Bool.and_eq_true_iff.mp hidle
      obtain ⟨name, _ | o⟩ := a
      · exact ih (w.note tag call (.acted name .notAnAct atEnd)) hrest
      · exact absurd ha (by simp [Act.isIdle])

theorem system_act (w : World) (tag : String) (call : Nat) (atEnd : Bool)
    (hidle : acts.all Act.isIdle = true) : (w.act tag call atEnd acts).system = w.system :=
  (congrArg World.system (act_eq w tag call atEnd hidle) :)

theorem Call.idle_of_quiet {c : Call} (h : c.isQuiet = true) :
    c.acts.all Act.isIdle = true ∧ c.actsEnd.all Act.isIdle = true := by
  rw [Call.isQuiet, List.all_append] at h
  exact Bool.and_eq_true_iff.mp h

/-- Every run of a callback performs no operations. -/
theorem Sane.quiet_call {s : System} {callbacks : List Callback} {waits : List Wait}
    (h : Sane s callbacks waits) {b : Callback} (hb : b ∈ callbacks) {cs : List Call}
    (hscript : b.script = .calls cs) (n : Nat) :
    (Progress.call (scripted cs n)).isQuiet = true := by
  have hquiet := (h.called b hb).1
  rw [hscript] at hquiet
  exact isQuiet_scripted hquiet n

theorem Twins.withStore (h : Twins hidden w w') (store store' : FeedStore) :
    Twins hidden { w with store := store } { w' with store := store' } :=
  ⟨h.stage, h.bare, h.alive, h.session⟩

theorem finish_alive (s : System) (id : Nat) (failed : Bool) :
    (s.finish id failed).alive = s.alive := by
  unfold System.finish
  split
  · rw [call_eq]
  · rfl

theorem Twins.finish (h : Twins hidden w w') (hne : run.key ≠ hidden)
    (hknows : w.system.Knows run.id run.key) (hknows' : w'.system.Knows run.id run.key)
    (failed : Bool) :
    Twins hidden { w with system := w.system.finish run.id failed }
      { w' with system := w'.system.finish run.id failed } :=
  h.staged (h.stage.finish hne hknows hknows' failed) rfl rfl (finish_alive _ _ _)

theorem Twins.finish_own (h : Twins hidden w w') (hown : run.key = hidden)
    (hknows : w.system.Knows run.id run.key) (failed : Bool) :
    Twins hidden { w with system := w.system.finish run.id failed } w' :=
  h.staged (h.stage.finish_own hown hknows failed) rfl rfl (finish_alive _ _ _)

theorem Twins.endRun (h : Twins hidden w w') (hne : run.key ≠ hidden)
    (hknows : w.system.Knows run.id run.key) (hknows' : w'.system.Knows run.id run.key)
    (hquiet : progress.isQuiet = true) :
    Twins hidden (w.endRun run tag call progress) (w'.endRun run tag call progress) := by
  cases progress with
  | call c =>
      have hidle := (Call.idle_of_quiet hquiet).2
      refine ((h.act tag call true hidle).note tag call _).finish hne ?_ ?_ _
      · exact (system_act w tag call true hidle).symm ▸ hknows
      · exact (system_act w' tag call true hidle).symm ▸ hknows'
  | fetch f =>
      exact ((h.note tag call (.ended none)).finish hne hknows hknows' _).withStore _ _

theorem Twins.endRun_own (h : Twins hidden w w') (hown : run.key = hidden)
    (htag : keyOf? tag = some run.key) (hknows : w.system.Knows run.id run.key)
    (hquiet : progress.isQuiet = true) : Twins hidden (w.endRun run tag call progress) w' := by
  have htag : keyOf? tag = some hidden := hown ▸ htag
  cases progress with
  | call c =>
      have hidle := (Call.idle_of_quiet hquiet).2
      refine ((h.act_own htag call true hidle).note_own htag call _).finish_own hown ?_ _
      exact (system_act w tag call true hidle).symm ▸ hknows
  | fetch f =>
      exact ((h.note_own htag call (.ended none)).finish_own hown hknows _).withStore _ _

theorem Twins.continueRun (h : Twins hidden w w') (hne : run.key ≠ hidden)
    (htag : keyOf? tag = some run.key) (hknows : w.system.Knows run.id run.key)
    (hknows' : w'.system.Knows run.id run.key) (hquiet : progress.isQuiet = true)
    (work : Duration) :
    Twins hidden (w.continueRun run tag call work progress)
      (w'.continueRun run tag call work progress) := by
  unfold World.continueRun
  rw [h.now]
  split
  · exact h.endRun hne hknows hknows' hquiet
  · exact h.wait _ ⟨htag, hknows, hquiet⟩ ⟨htag, hknows', hquiet⟩

theorem Twins.continueRun_own (h : Twins hidden w w') (hown : run.key = hidden)
    (htag : keyOf? tag = some run.key) (hknows : w.system.Knows run.id run.key)
    (hquiet : progress.isQuiet = true) (work : Duration) :
    Twins hidden (w.continueRun run tag call work progress) w' := by
  unfold World.continueRun
  split
  · exact h.endRun_own hown htag hknows hquiet
  · exact h.wait_own _ ⟨htag, hknows, hquiet⟩ (by simp [Task.isOf, hown])

/-- A run of another key begins in both worlds. -/
theorem Twins.beginRun (h : Twins hidden w w') (hne : run.key ≠ hidden) (hrun : run ∈ w.system.runs)
    (hrun' : run ∈ w'.system.runs) (hknows : w.system.Knows run.id run.key)
    (hknows' : w'.system.Knows run.id run.key) :
    Twins hidden (w.beginRun run) (w'.beginRun run) := by
  unfold World.beginRun
  rw [h.stage.callback hne hrun hrun']
  cases hf : w'.callbacks.find? (·.id == run.id) with
  | none => exact h
  | some b =>
      obtain ⟨hb, hid⟩ : b ∈ w'.callbacks ∧ b.id = run.id :=
        ⟨List.mem_of_find?_eq_some hf, by simpa using List.find?_some hf⟩
      have htag := h.stage.sane'.key_of_called hb hrun' hid
      have hcount : Twins hidden { w with callbacks := counted w.callbacks run.id }
          { w' with callbacks := counted w'.callbacks run.id } :=
        h.staged (h.stage.counted run.id) rfl rfl rfl
      dsimp only
      cases hscript : b.script with
      | calls cs =>
          have hc := h.stage.sane'.quiet_call hb hscript b.calls
          have hidle := (Call.idle_of_quiet hc).1
          have hnote := hcount.note b.tag b.calls .started
          dsimp only
          split
          · exact hnote.finish hne hknows hknows' true
          · refine (hnote.act b.tag b.calls false hidle).continueRun hne htag ?_ ?_ hc _
            · exact (system_act _ b.tag b.calls false hidle).symm ▸ hknows
            · exact (system_act _ b.tag b.calls false hidle).symm ▸ hknows'
      | fetches fs =>
          exact ((hcount.withStore _ _).note b.tag b.calls .started).continueRun hne htag hknows
            hknows' rfl _

/-- Nobody sees a run of the veiled key begin. -/
theorem Twins.beginRun_own (h : Twins hidden w w') (hown : run.key = hidden)
    (hrun : run ∈ w.system.runs) (hknows : w.system.Knows run.id run.key) :
    Twins hidden (w.beginRun run) w' := by
  unfold World.beginRun
  cases hf : w.callbacks.find? (·.id == run.id) with
  | none => exact h
  | some b =>
      obtain ⟨hb, hid⟩ : b ∈ w.callbacks ∧ b.id = run.id :=
        ⟨List.mem_of_find?_eq_some hf, by simpa using List.find?_some hf⟩
      have htag := h.stage.sane.key_of_called hb hrun hid
      have htag' : keyOf? b.tag = some hidden := hown ▸ htag
      have hcount : Twins hidden { w with callbacks := counted w.callbacks run.id } w' :=
        h.staged (h.stage.counted_own hrun hown) rfl rfl rfl
      dsimp only
      cases hscript : b.script with
      | calls cs =>
          have hc := h.stage.sane.quiet_call hb hscript b.calls
          have hidle := (Call.idle_of_quiet hc).1
          have hnote := hcount.note_own htag' b.calls .started
          dsimp only
          split
          · exact hnote.finish_own hown hknows true
          · refine (hnote.act_own htag' b.calls false hidle).continueRun_own hown htag ?_ hc _
            exact (system_act _ b.tag b.calls false hidle).symm ▸ hknows
      | fetches fs =>
          have hstore : Twins hidden { w with
              callbacks := counted w.callbacks run.id
              store := w.store.beginFetch run.key } w' := hcount.withStore _ w'.store
          exact (hstore.note_own htag' b.calls .started).continueRun_own hown htag hknows rfl _

theorem fire_eq (w : World) (number : Nat) : w.fire number =
    match (w.system.fire number).2 with
    | none => { w with system := (w.system.fire number).1 }
    | some run => { w with system := (w.system.fire number).1 }.beginRun run := by
  unfold World.fire
  cases w.system.fire number with
  | mk s run => cases run <;> rfl

theorem fire_alive (s : System) (number : Nat) : (s.fire number).1.alive = s.alive := by
  unfold System.fire
  split
  · rfl
  · split
    · rfl
    · dsimp only
      split <;> rfl

/-- A timer of another key has its turn in both worlds. -/
theorem Twins.fire (h : Twins hidden w w') {t t' : Timer} (ht : t ∈ w.system.coordinator.timers)
    (ht' : t' ∈ w'.system.coordinator.timers) (hdue : t.deadline ≤ w.now)
    (hdue' : t'.deadline ≤ w'.now)
    (hpoll : t.poll = t'.poll) (hother : w.system.coordinator.idOf? hidden ≠ some t.poll) :
    Twins hidden (w.fire t.number) (w'.fire t'.number) := by
  obtain ⟨hstage, heq, hrun⟩ := h.stage.fire ht ht' hdue hdue' hpoll hother
  have hfired : Twins hidden { w with system := (w.system.fire t.number).1 }
      { w' with system := (w'.system.fire t'.number).1 } :=
    h.staged hstage rfl rfl (fire_alive _ _)
  rw [fire_eq, fire_eq, ← heq]
  cases hr : (w.system.fire t.number).2 with
  | none => exact hfired
  | some run =>
      obtain ⟨hne, hknows, hknows'⟩ := hrun run hr
      exact hfired.beginRun hne (mem_runs_fire hr) (mem_runs_fire (heq ▸ hr)) hknows hknows'

/-- Nobody sees the turn of a timer of the veiled key. -/
theorem Twins.fire_own (h : Twins hidden w w') {t : Timer} (ht : t ∈ w.system.coordinator.timers)
    (hdue : t.deadline ≤ w.now) (hown : w.system.coordinator.idOf? hidden = some t.poll) :
    Twins hidden (w.fire t.number) w' := by
  obtain ⟨hstage, hrun⟩ := h.stage.fire_own ht hdue hown
  have hfired : Twins hidden { w with system := (w.system.fire t.number).1 } w' :=
    h.staged hstage rfl rfl (fire_alive _ _)
  rw [fire_eq]
  cases hr : (w.system.fire t.number).2 with
  | none => exact hfired
  | some run =>
      obtain ⟨hkey, hknows⟩ := hrun run hr
      exact hfired.beginRun_own hkey (mem_runs_fire hr) hknows

/-! ### Listeners -/

theorem Twins.withListener (h : Twins hidden w w') (l : Option ListenerTask) :
    Twins hidden { w with listener := l } { w' with listener := l } :=
  h.map (fun u => { u with listener := l }) (fun _ => rfl) (fun _ => rfl) h.alive h.session

theorem Twins.hearSignals (h : Twins hidden w w') (l : ListenerTask) (fuel : Nat) :
    Twins hidden (w.hearSignals l fuel) (w'.hearSignals l fuel) := by
  induction fuel generalizing w w' l with
  | zero => exact h
  | succ fuel ih =>
      have hchannel : w.channels[l.channel]? = w'.channels[l.channel]? := by rw [h.channels]
      unfold World.hearSignals
      rw [hchannel]
      cases w'.channels[l.channel]? with
      | none => exact h.withListener none
      | some channel =>
          dsimp only
          cases l.place.wake? channel.sent with
          | none =>
              dsimp only
              rw [h.isOpen]
              split
              · exact h
              · exact h.withListener none
          | some place =>
              dsimp only
              rw [h.stage.alive]
              split
              · exact ih ((h.event (e := .refresh) trivial (fun _ => rfl)
                  fun hc _ _ => hc.refresh).withListener _) _
              · exact h.withListener none

theorem Twins.runListener (h : Twins hidden w w') : Twins hidden w.runListener w'.runListener := by
  unfold World.runListener
  rw [h.listener]
  cases w'.listener with
  | none => exact h
  | some l =>
      dsimp only
      split
      · exact h.withListener none
      · exact h.hearSignals l _

/-! ### Followers -/

theorem Twins.watchOf (h : Twins hidden w w') (source : Source) :
    w.watchOf source = w'.watchOf source := by
  unfold World.watchOf
  rw [h.watches, h.monitors]

theorem Twins.modifyWatch (h : Twins hidden w w') (source : Source) (f : Watch → Watch) :
    Twins hidden (w.modifyWatch source f) (w'.modifyWatch source f) := by
  cases source with
  | watch i =>
      exact h.map (fun u => u.modifyWatch (.watch i) f) (fun _ => rfl) (fun _ => rfl) h.alive
        h.session
  | monitor i =>
      exact h.map (fun u => u.modifyWatch (.monitor i) f) (fun _ => rfl) (fun _ => rfl) h.alive
        h.session

theorem Twins.runFollower (h : Twins hidden w w') (index : Nat) :
    Twins hidden (w.runFollower index) (w'.runFollower index) := by
  have hget : w.followers[index]? = w'.followers[index]? := by rw [h.followers]
  unfold World.runFollower
  rw [hget]
  cases hf : w'.followers[index]? with
  | none => exact h
  | some t =>
      dsimp only
      split
      · exact h
      · next hrunning =>
          have ha : w.system.alive = true := by
            refine h.alive (Bool.or_eq_true_iff.mpr (Or.inr (List.any_eq_true.mpr ⟨t, ?_, ?_⟩)))
            · exact h.followers ▸ List.mem_of_getElem? hf
            · simpa using hrunning
          obtain ⟨hfollower, hturn⟩ := Follower.turn_congr
            (R := fun c c' => Twins hidden (w.withCoordinator c) (w'.withCoordinator c'))
            (fun hR v => hR.setBackendAvailable ha v) (fun hR v => hR.setAuthenticated ha v) h
            t.follower (w'.watchOf t.health) (w'.watchOf t.auth)
          rw [h.watchOf, h.watchOf]
          generalize t.follower.turn w.system.coordinator _ _ = x at hfollower hturn ⊢
          generalize t.follower.turn w'.system.coordinator _ _ = x' at hfollower hturn ⊢
          obtain ⟨f, c⟩ := x
          obtain ⟨f', c'⟩ := x'
          obtain rfl : f = f' := hfollower
          have hset := hturn.map (fun u => { u with
              followers := u.followers.modify index fun t =>
                { t with follower := f, running := !f.finished } })
            (fun _ => rfl) (fun _ => rfl) (fun _ => ha) h.session
          dsimp only
          split
          · exact hset
          · exact ((hset.modifyWatch t.health _).modifyWatch t.auth _).noticeRelease

/-! ### Monitors -/

theorem Twins.setMonitor (h : Twins hidden w w') (index : Nat) (t : MonitorTask) :
    Twins hidden { w with monitors := w.monitors.set index t }
      { w' with monitors := w'.monitors.set index t } :=
  h.map (fun u => { u with monitors := u.monitors.set index t }) (fun _ => rfl) (fun _ => rfl)
    h.alive h.session

theorem Twins.endProbe (h : Twins hidden w w') (index : Nat) (t : MonitorTask) (available : Bool) :
    Twins hidden (w.endProbe index t available) (w'.endProbe index t available) := by
  have hset := (h.note (World.monitorTag index) (t.calls - 1) (.probed available)).setMonitor index
    { t with monitor := t.monitor.endProbe available }
  unfold World.endProbe
  dsimp only
  split
  · exact hset
  · exact hset.wakeFollowersOf (.monitor index)

theorem Twins.runMonitor (h : Twins hidden w w') (index : Nat) (fuel : Nat) :
    Twins hidden (w.runMonitor index fuel) (w'.runMonitor index fuel) := by
  induction fuel generalizing w w' with
  | zero =>
      unfold World.runMonitor
      rw [h.now]
      exact h.wait _ trivial trivial
  | succ fuel ih =>
      have hget : w.monitors[index]? = w'.monitors[index]? := by rw [h.monitors]
      unfold World.runMonitor
      rw [hget]
      cases w'.monitors[index]? with
      | none => exact h
      | some t =>
          dsimp only
          cases t.monitor.phase with
          | ended => exact h
          | probing => exact ih (h.endProbe index t _)
          | waiting =>
              dsimp only
              rw [h.now]
              cases (t.monitor.beginProbe w'.now).phase with
              | waiting => exact h.wait _ trivial trivial
              | ended => exact (h.setMonitor index _).wakeFollowersOf (.monitor index)
              | probing =>
                  have hset := (h.note (World.monitorTag index) t.calls .probing).setMonitor index
                    { t with monitor := t.monitor.beginProbe w'.now, calls := t.calls + 1 }
                  dsimp only
                  split
                  · exact ih hset
                  · rw [hset.now]
                    refine hset.wait _ ?_ ?_ <;> trivial

/-! ### Turns -/

/-- A task that is about no run of the veiled key has its turn in both worlds. -/
theorem Twins.runTask (h : Twins hidden w w') {task : Task} (hother : task.isOf hidden = false)
    (hproper : task.IsProper w.system) (hproper' : task.IsProper w'.system) :
    Twins hidden (w.runTask task) (w'.runTask task) := by
  cases task with
  | endRun run tag call progress =>
      exact h.endRun (by simpa [Task.isOf] using hother) hproper.2.1 hproper'.2.1 hproper.2.2
  | listener => exact h.runListener
  | follower index => exact h.runFollower index
  | monitor index => exact h.runMonitor index World.monitorTurns

theorem Twins.runTask_own (h : Twins hidden w w') {task : Task} (hown : task.isOf hidden = true)
    (hproper : task.IsProper w.system) : Twins hidden (w.runTask task) w' := by
  cases task with
  | endRun run tag call progress =>
      exact h.endRun_own (by simpa [Task.isOf] using hown) hproper.1 hproper.2.1 hproper.2.2
  | listener | follower | monitor => exact absurd hown (by simp [Task.isOf])

/-- A coordinator that nobody holds has no timers. -/
theorem timers_of_gone {s : System} (hs : s.Sound) (hdead : s.alive = false) :
    s.coordinator.timers = [] := by
  refine List.eq_nil_iff_forall_not_mem.mpr fun t ht => ?_
  obtain ⟨r, hr, -⟩ := hs.tidy.owner t ht
  exact absurd ((hs.alive hr).symm.trans hdead) (by simp)

theorem Twins.turn?_eq (h : Twins hidden w w') :
    w.turn? = (w.agenda.find? (·.isDue w.now)).map w.give :=
  World.turn?_eq h.stage.coordinators.laid (timers_of_gone h.stage.sane.sound)

/-- Nobody sees what is about the veiled key have its turn. -/
theorem Twins.give_own (h : Twins hidden w w') {entry : Entry}
    (hf : w.agenda.find? (·.isDue w.now) = some entry)
    (hown : entry.isOf hidden (w.system.coordinator.idOf? hidden) = true) :
    Twins hidden (w.give entry) w' := by
  have hmem := List.mem_of_find?_eq_some hf
  have hdue := List.find?_some hf
  cases entry with
  | timer t =>
      exact h.fire_own (h.stage.coordinators.laid.mem_timers.mpr hmem) (of_decide_eq_true hdue)
        (by simpa [Entry.isOf] using hown)
  | wait k =>
      have htake : Twins hidden
          { w with waiting := w.waiting.eraseP fun k => decide (k.due ≤ w.now) } w' :=
        h.staged (h.stage.take_own hf hown) rfl rfl rfl
      exact htake.runTask_own hown
        (h.stage.sane.tasks k (h.stage.coordinators.laid.mem_waits.mpr hmem))

/-- Something that is not about the veiled key has its turn in both worlds. -/
theorem Twins.give (h : Twins hidden w w') {entry entry' : Entry}
    (hf : w.agenda.find? (·.isDue w.now) = some entry)
    (hf' : w'.agenda.find? (·.isDue w.now) = some entry') (hplain : entry.plain = entry'.plain)
    (hother : entry.isOf hidden (w.system.coordinator.idOf? hidden) = false)
    (hother' : entry'.isOf hidden (w'.system.coordinator.idOf? hidden) = false) :
    Twins hidden (w.give entry) (w'.give entry') := by
  have hmem := List.mem_of_find?_eq_some hf
  have hmem' := List.mem_of_find?_eq_some hf'
  have hdue := List.find?_some hf
  have hdue' := List.find?_some hf'
  cases entry with
  | timer t =>
      cases entry' with
      | wait k' => exact absurd hplain (by simp [Entry.plain])
      | timer t' =>
          have hsame : { t with number := 0 } = { t' with number := 0 } := Entry.timer.inj hplain
          exact h.fire (h.stage.coordinators.laid.mem_timers.mpr hmem)
            (h.stage.coordinators.laid'.mem_timers.mpr hmem') (of_decide_eq_true hdue)
            (h.now ▸ of_decide_eq_true hdue')
            (congrArg Timer.poll hsame :) (by simpa [Entry.isOf] using hother)
  | wait k =>
      cases entry' with
      | timer t' => exact absurd hplain (by simp [Entry.plain])
      | wait k' =>
          have hsame : { k with after := 0 } = { k' with after := 0 } := Entry.wait.inj hplain
          have htask : k.task = k'.task := (congrArg Wait.task hsame :)
          have htake : Twins hidden
              { w with waiting := w.waiting.eraseP fun k => decide (k.due ≤ w.now) }
              { w' with waiting := w'.waiting.eraseP fun k => decide (k.due ≤ w.now) } :=
            h.staged (h.stage.take hf hf' hother hother') rfl rfl rfl
          show Twins hidden _ ({ w' with
            waiting := w'.waiting.eraseP fun k => decide (k.due ≤ w'.now) }.runTask k'.task)
          rw [← h.now, ← htask]
          exact htake.runTask hother
            (h.stage.sane.tasks k (h.stage.coordinators.laid.mem_waits.mpr hmem))
            (htask ▸ h.stage.sane'.tasks k' (h.stage.coordinators.laid'.mem_waits.mpr hmem'))

/--
What comes next in twins.  It is a turn that is not seen in one of them, or the same turn in
both, or there is none in either.
-/
theorem Twins.turn (h : Twins hidden w w') :
    (∃ u, w.turn? = some u ∧ Twins hidden u w') ∨
    (∃ u', w'.turn? = some u' ∧ Twins hidden w u') ∨
    (∃ u u', w.turn? = some u ∧ w'.turn? = some u' ∧ Twins hidden u u') ∨
    (w.turn? = none ∧ w'.turn? = none) := by
  have hturn := h.turn?_eq
  have hturn' := h.symm.turn?_eq
  have htheirs : (besides hidden (w.system.coordinator.idOf? hidden) w.agenda).find? (·.isDue w.now)
      = (besides hidden (w'.system.coordinator.idOf? hidden) w'.agenda).find? (·.isDue w.now) :=
    congrArg (List.find? (·.isDue w.now)) h.stage.coordinators.theirs
  rw [← h.now] at hturn'
  cases hf : w.agenda.find? (·.isDue w.now) with
  | none =>
      rw [hf] at hturn
      rw [find?_besides_none hf] at htheirs
      cases hf' : w'.agenda.find? (·.isDue w.now) with
      | none =>
          rw [hf'] at hturn'
          exact Or.inr (Or.inr (Or.inr ⟨hturn, hturn'⟩))
      | some entry' =>
          rw [hf'] at hturn'
          cases hown' : entry'.isOf hidden (w'.system.coordinator.idOf? hidden) with
          | true => exact Or.inr (Or.inl ⟨_, hturn', (h.symm.give_own (h.now ▸ hf') hown').symm⟩)
          | false =>
              rw [find?_besides hf' hown'] at htheirs
              exact absurd htheirs (by simp)
  | some entry =>
      rw [hf] at hturn
      cases hown : entry.isOf hidden (w.system.coordinator.idOf? hidden) with
      | true => exact Or.inl ⟨_, hturn, h.give_own hf hown⟩
      | false =>
          rw [find?_besides hf hown] at htheirs
          cases hf' : w'.agenda.find? (·.isDue w.now) with
          | none =>
              rw [find?_besides_none hf'] at htheirs
              exact absurd htheirs (by simp)
          | some entry' =>
              rw [hf'] at hturn'
              cases hown' : entry'.isOf hidden (w'.system.coordinator.idOf? hidden) with
              | true =>
                  exact Or.inr (Or.inl ⟨_, hturn', (h.symm.give_own (h.now ▸ hf') hown').symm⟩)
              | false =>
                  rw [find?_besides hf' hown'] at htheirs
                  exact Or.inr (Or.inr (Or.inl ⟨_, _, hturn, hturn',
                    h.give hf hf' (Option.some.inj htheirs) hown hown'⟩))

end Simulation

end FeedPoller
