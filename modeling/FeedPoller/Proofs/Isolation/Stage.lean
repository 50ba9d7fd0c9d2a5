/-
What surrounds a coordinator in a simulation, through the veil over a key.

Around the coordinator there are the runs that are going on, the callbacks that say how
runs go, the tasks that wait and the notes that were made.  Through the veil over a key its
runs, its callbacks, its tasks and its notes are not seen at all.  `Stage` says that nothing
can be told between two simulations in these respects.

Here are the elementary things that happen: a call, a timer's turn, the end of a run, a note,
a task that begins to wait or has its turn, a new callback.  Each comes in two forms, as it
happens on both sides and, if it is about the veiled key, as it happens on one side only and
is not seen.

That a run, a callback and a registration are about the same key is known from the id that
they share (`System.Knows`).
-/
import FeedPoller.Proofs.Isolation.Scripts
import FeedPoller.Proofs.Isolation.Waiting

namespace FeedPoller.Simulation

open Coordinator (Alike)

/-- Whether a callback says how the runs of a key go. -/
def Callback.isOf (key : String) (b : Callback) : Bool := keyOf? b.tag == some key

/-- A task that comes to its end later knows what it is about, and does nothing else. -/
def Task.IsProper (s : System) : Task → Prop
  | .endRun run tag _ progress =>
    keyOf? tag = some run.key ∧ s.Knows run.id run.key ∧ progress.isQuiet = true
  | _ => True

/-- What holds of the coordinator, the callbacks and the tasks of every simulation. -/
structure Sane (s : System) (callbacks : List Callback) (waits : List Wait) : Prop where
  sound : s.Sound
  awake : s.woken = []
  still : s.coordinator.Still
  faultless : s.coordinator.Faultless
  called : ∀ b ∈ callbacks,
    b.script.isQuiet = true ∧ ∃ key, keyOf? b.tag = some key ∧ s.Knows b.id key
  tasks : ∀ k ∈ waits, k.task.IsProper s

/-- Nothing can be told between two simulations through the veil over a key. -/
structure Stage (hidden : String) (s s' : System) (callbacks callbacks' : List Callback)
    (waits waits' : List Wait) (notes notes' : List Note) : Prop where
  sane : Sane s callbacks waits
  sane' : Sane s' callbacks' waits'
  coordinators : Alike hidden waits waits' s.coordinator s'.coordinator
  alive : s.alive = s'.alive
  runs : s.runs.filter (·.key != hidden) = s'.runs.filter (·.key != hidden)
  callbacks : callbacks.filter (!·.isOf hidden) = callbacks'.filter (!·.isOf hidden)
  notes : notes.filter (!·.isOf hidden) = notes'.filter (!·.isOf hidden)

variable {hidden : String} {s s' : System} {callbacks callbacks' : List Callback}
  {waits waits' : List Wait} {notes notes' : List Note} {e : Event}

theorem Stage.symm (h : Stage hidden s s' callbacks callbacks' waits waits' notes notes') :
    Stage hidden s' s callbacks' callbacks waits' waits notes' notes :=
  ⟨h.sane', h.sane, h.coordinators.symm, h.alive.symm, h.runs.symm, h.callbacks.symm,
    h.notes.symm⟩

/-! ### Events -/

theorem Task.IsProper.step {task : Task} (h : task.IsProper s) (hs : s.Sound) (e : Event) :
    task.IsProper (s.step e) := by
  cases task with
  | endRun run tag call progress => exact ⟨h.1, hs.knows_step h.2.1 e, h.2.2⟩
  | listener | follower | monitor => trivial

theorem Sane.step (h : Sane s callbacks waits) (he : System.Natural e) :
    Sane (s.step e) callbacks waits where
  sound := h.sound.step e
  awake := h.sound.awake_step h.awake he
  still := h.sound.still_step h.still he
  faultless := h.sound.faultless_step h.faultless e
  called := by
    intro b hb
    obtain ⟨hquiet, key, htag, hknows⟩ := h.called b hb
    exact ⟨hquiet, key, htag, h.sound.knows_step hknows e⟩
  tasks := fun k hk => (h.tasks k hk).step h.sound e

theorem call_eq (s : System) (f : Coordinator → Coordinator) :
    s.call f = { s with coordinator := if s.alive then f s.coordinator else s.coordinator } := by
  unfold System.call
  split <;> rfl

/-- A call of a user is the same on both sides. -/
theorem Stage.call (h : Stage hidden s s' callbacks callbacks' waits waits' notes notes')
    (he : System.Natural e) {f : Coordinator → Coordinator}
    (hcall : ∀ s : System, s.step e = s.call f)
    (hf : ∀ {c c' : Coordinator}, Alike hidden waits waits' c c' → c.Still → c'.Still →
      Alike hidden waits waits' (f c) (f c')) :
    Stage hidden (s.step e) (s'.step e) callbacks callbacks' waits waits' notes notes' := by
  have hstep := fun s => (hcall s).trans (call_eq s f)
  refine ⟨h.sane.step he, h.sane'.step he, ?_, ?_, ?_, h.callbacks, h.notes⟩ <;>
    rw [hstep s, hstep s']
  · dsimp only
    rw [h.alive]
    split
    · exact hf h.coordinators h.sane.still h.sane'.still
    · exact h.coordinators
  · exact h.alive
  · exact h.runs

theorem Stage.release (h : Stage hidden s s' callbacks callbacks' waits waits' notes notes') :
    Stage hidden (s.step .release) (s'.step .release) callbacks callbacks' waits waits' notes
      notes' :=
  ⟨h.sane.step trivial, h.sane'.step trivial, h.coordinators.clear, rfl, h.runs, h.callbacks,
    h.notes⟩

theorem Stage.elapse (h : Stage hidden s s' callbacks callbacks' waits waits' notes notes')
    (d : Duration) :
    Stage hidden (s.elapse d) (s'.elapse d) callbacks callbacks' waits waits' notes notes' := by
  have hclock := h.coordinators.withClock (s'.coordinator.clock.advance d)
  refine ⟨h.sane.step (e := .elapse d) trivial, h.sane'.step (e := .elapse d) trivial, ?_, h.alive,
    h.runs, h.callbacks, h.notes⟩
  unfold System.elapse
  rw [h.coordinators.clock]
  exact hclock

/-! ### A timer's turn -/

/-- Registrations with the same id on both sides look the same. -/
theorem veil_eq_of_id (h : Alike hidden waits waits' s.coordinator s'.coordinator)
    {r r' : Registration} (hr : r ∈ s.coordinator.registry) (hr' : r' ∈ s'.coordinator.registry)
    (hid : r.id = r'.id) : r.veil hidden = r'.veil hidden := by
  obtain ⟨q, hq, hv⟩ := h.counterpart hr
  rw [hv, h.tidy'.uniqueIds.eq hq hr' ((Registration.id_of_veil hv).symm.trans hid)]

/-- What a turn makes of registrations that look the same. -/
theorem veil_turn {r r' : Registration} (hv : r.veil hidden = r'.veil hidden) (paused : Bool) :
    (if paused then r.skipped else r.begun).veil hidden
      = (if paused then r'.skipped else r'.begun).veil hidden := by
  cases paused with
  | true =>
      exact Registration.veil_congr (·.skipped) (fun _ => rfl) (fun _ => rfl) (fun _ => rfl) hv
  | false =>
      exact Registration.veil_congr (·.begun) (fun _ => rfl) (fun _ => rfl) (fun _ => rfl) hv

theorem turn_sameTimer {r : Registration} (paused : Bool) :
    (if paused then r.skipped else r.begun).id = r.id ∧
      (if paused then r.skipped else r.begun).key = r.key ∧
      (if paused then r.skipped else r.begun).timer = none := by
  cases paused <;> exact ⟨rfl, rfl, rfl⟩

/-- A timer of another key has its turn on both sides. -/
theorem Stage.fire (h : Stage hidden s s' callbacks callbacks' waits waits' notes notes')
    {t t' : Timer} (ht : t ∈ s.coordinator.timers) (ht' : t' ∈ s'.coordinator.timers)
    (hdue : t.deadline ≤ s.now) (hdue' : t'.deadline ≤ s'.now) (hpoll : t.poll = t'.poll)
    (hother : s.coordinator.idOf? hidden ≠ some t.poll) :
    Stage hidden (s.fire t.number).1 (s'.fire t'.number).1 callbacks callbacks' waits waits' notes
        notes' ∧
      (s.fire t.number).2 = (s'.fire t'.number).2 ∧
      ∀ run, (s.fire t.number).2 = some run → run.key ≠ hidden ∧
        (s.fire t.number).1.Knows run.id run.key ∧ (s'.fire t'.number).1.Knows run.id run.key := by
  obtain ⟨r, hr, hid, -⟩ := h.sane.sound.tidy.owner t ht
  obtain ⟨r', hr', hid', -⟩ := h.sane'.sound.tidy.owner t' ht'
  have hv := veil_eq_of_id h.coordinators hr hr' (hid.trans (hpoll.trans hid'.symm))
  have hids := Registration.id_of_veil hv
  have hkeys := Registration.key_of_veil hv
  have hne : r.key ≠ hidden := fun hk =>
    hother (hid ▸ (Coordinator.idOf?_eq_some h.sane.sound.tidy.toOrderly hr).mpr hk)
  have hpaused : r.isPaused s.coordinator.gates = r'.isPaused s'.coordinator.gates := by
    rw [h.coordinators.gates, Registration.isPaused_of_veil hv]
  have hknows := h.sane.sound.knows_step (h.sane.sound.knows hr) (.fire t.number)
  have hknows' := h.sane'.sound.knows_step (h.sane'.sound.knows hr') (.fire t'.number)
  have hsane := h.sane.step (e := .fire t.number) trivial
  have hsane' := h.sane'.step (e := .fire t'.number) trivial
  rw [System.step, h.sane.sound.fire_armed ht hdue hr hid, hpaused] at hknows hsane
  rw [System.step, h.sane'.sound.fire_armed ht' hdue' hr' hid'] at hknows' hsane'
  rw [h.sane.sound.fire_armed ht hdue hr hid, h.sane'.sound.fire_armed ht' hdue' hr' hid', hpaused]
  refine ⟨⟨hsane, hsane', ?_, h.alive, ?_, h.callbacks, h.notes⟩, by rw [hids, hkeys], ?_⟩
  · obtain ⟨hi, hk, hn⟩ := turn_sameTimer (r := r) (r'.isPaused s'.coordinator.gates)
    obtain ⟨hi', hk', hn'⟩ := turn_sameTimer (r := r') (r'.isPaused s'.coordinator.gates)
    exact h.coordinators.replan hr hr' (.refl r) (.refl r') hi hi' hk hk' hn hn' (veil_turn hv _)
  · rw [List.filter_append, List.filter_append, h.runs, hids, hkeys]
  · intro run hrun
    split at hrun
    · exact absurd hrun (by simp)
    · rw [← Option.some.inj hrun]
      refine ⟨hne, hknows, ?_⟩
      dsimp only
      rw [hids, hkeys]
      exact hknows'

/-- Nobody sees the turn of a timer of the veiled key. -/
theorem Stage.fire_own (h : Stage hidden s s' callbacks callbacks' waits waits' notes notes')
    {t : Timer} (ht : t ∈ s.coordinator.timers) (hdue : t.deadline ≤ s.now)
    (hown : s.coordinator.idOf? hidden = some t.poll) :
    Stage hidden (s.fire t.number).1 s' callbacks callbacks' waits waits' notes notes' ∧
      ∀ run, (s.fire t.number).2 = some run → run.key = hidden ∧
        (s.fire t.number).1.Knows run.id run.key := by
  obtain ⟨r, hr, hid, -⟩ := h.sane.sound.tidy.owner t ht
  have hkey : r.key = hidden :=
    (Coordinator.idOf?_eq_some h.sane.sound.tidy.toOrderly hr).mp (hid ▸ hown)
  have hknows := h.sane.sound.knows_step (h.sane.sound.knows hr) (.fire t.number)
  have hsane := h.sane.step (e := .fire t.number) trivial
  rw [System.step, h.sane.sound.fire_armed ht hdue hr hid] at hknows hsane
  rw [h.sane.sound.fire_armed ht hdue hr hid]
  refine ⟨⟨hsane, h.sane', ?_, h.alive, ?_, h.callbacks, h.notes⟩, ?_⟩
  · refine h.coordinators.replan_own hr hkey (.refl r) (Registration.veil_eq_own hkey ?_)
      (turn_sameTimer _).2.2
    split <;> rfl
  · rw [List.filter_append, ← h.runs]
    split <;> simp [hkey]
  · intro run hrun
    split at hrun
    · exact absurd hrun (by simp)
    · rw [← Option.some.inj hrun]
      exact ⟨hkey, hknows⟩

/-- A run that a timer's turn has begun is going on. -/
theorem mem_runs_fire {n : Nat} {run : Run} (h : (s.fire n).2 = some run) :
    run ∈ (s.fire n).1.runs := by
  unfold System.fire at h ⊢
  split at h
  · exact absurd h (by simp)
  · split at h
    · exact absurd h (by simp)
    · dsimp only at h ⊢
      split at h
      · exact absurd h (by simp)
      · next hdead _ t ht c r hb =>
          simp_all

/-! ### The end of a run -/

/-- Taking one element out goes together with looking at those of its kind only. -/
theorem filter_eraseP_of {α : Type} {p q : α → Bool} : ∀ {l : List α},
    (∀ x ∈ l, p x = true → q x = true) → (l.eraseP p).filter q = (l.filter q).eraseP p := by
  intro l
  induction l with
  | nil => intro _; rfl
  | cons a rest ih =>
      intro h
      have hrest := ih fun x hx => h x (by simp [hx])
      cases hp : p a with
      | true =>
          have hq := h a (by simp) hp
          rw [List.eraseP_cons_of_pos hp, List.filter_cons_of_pos hq, List.eraseP_cons_of_pos hp]
      | false =>
          have hnp : ¬ p a = true := by simp [hp]
          rw [List.eraseP_cons_of_neg hnp]
          cases hq : q a with
          | true =>
              rw [List.filter_cons_of_pos hq, List.filter_cons_of_pos hq,
                List.eraseP_cons_of_neg hnp, hrest]
          | false =>
              have hnq : ¬ q a = true := by simp [hq]
              rw [List.filter_cons_of_neg hnq, List.filter_cons_of_neg hnq, hrest]

/-- Taking one element out is nothing to those of another kind. -/
theorem filter_eraseP_not {α : Type} {p q : α → Bool} : ∀ {l : List α},
    (∀ x ∈ l, p x = true → q x = false) → (l.eraseP p).filter q = l.filter q := by
  intro l
  induction l with
  | nil => intro _; rfl
  | cons a rest ih =>
      intro h
      have hrest := ih fun x hx => h x (by simp [hx])
      cases hp : p a with
      | true =>
          have hnq : ¬ q a = true := by simp [h a (by simp) hp]
          rw [List.eraseP_cons_of_pos hp, List.filter_cons_of_neg hnq]
      | false =>
          rw [List.eraseP_cons_of_neg (by simp [hp]), List.filter_cons, List.filter_cons, hrest]

theorem face_afterRun (r : Registration) (run : Run) (time : DateTime) (failed : Bool) :
    (r.afterRun run time failed).face = r.face := by
  unfold Registration.afterRun
  split <;> rfl

theorem veil_afterRun {r r' : Registration} (hv : r.veil hidden = r'.veil hidden) (run : Run)
    (time : DateTime) (failed : Bool) :
    (r.afterRun run time failed).veil hidden = (r'.afterRun run time failed).veil hidden := by
  unfold Registration.afterRun
  rw [Registration.id_of_veil hv]
  split
  · exact Registration.veil_congr (·.completed time failed) (fun _ => rfl) (fun _ => rfl)
      (fun _ => rfl) hv
  · exact Registration.veil_congr (·.relieved) (fun _ => rfl) (fun _ => rfl) (fun _ => rfl) hv

/-- Nobody sees a run of the veiled key end. -/
theorem Stage.finish_own (h : Stage hidden s s' callbacks callbacks' waits waits' notes notes')
    {run : Run} (hown : run.key = hidden) (hknows : s.Knows run.id run.key) (failed : Bool) :
    Stage hidden (s.finish run.id failed) s' callbacks callbacks' waits waits' notes notes' := by
  have hsane := h.sane.step (e := .finish run.id failed) trivial
  rw [System.step] at hsane
  have hkeys : ∀ x ∈ s.runs, (x.id == run.id) = true → (x.key != hidden) = false := by
    intro x hx hid
    simpa [← hown] using hknows.runs x hx (by simpa using hid)
  obtain ⟨-, e⟩ | ⟨run', hrun', hid, ⟨-, e⟩ | ⟨r, hr, hw, e⟩⟩ :=
    h.sane.sound.finish_cases run.id failed <;> rw [e] at hsane ⊢
  · exact h
  · rw [hid] at hsane ⊢
    exact ⟨hsane, h.sane', h.coordinators, h.alive, (filter_eraseP_not hkeys).trans h.runs,
      h.callbacks, h.notes⟩
  · have hkey : r.key = hidden :=
      (h.sane.sound.books.keyed r hr run' hrun' hw).symm.trans
        ((hknows.runs run' hrun' hid).trans hown)
    have hnone := h.sane.sound.tidy.timer_none hr (Registration.awaitedRun_eq_some.mp hw).1
    rw [hid] at hsane ⊢
    exact ⟨hsane, h.sane', h.coordinators.settle_own hr hkey (r.afterRun_sameTimer run' _ failed)
      hnone (face_afterRun _ _ _ _), h.alive, (filter_eraseP_not hkeys).trans h.runs, h.callbacks,
      h.notes⟩

/-- The run that a name is known for is the only one of its id. -/
theorem run_eq {run x : Run} (h : s.Knows run.id run.key) (hx : x ∈ s.runs) (hid : x.id = run.id) :
    x = run := by
  have hkey := h.runs x hx hid
  cases x
  cases run
  exact congrArg₂ Run.mk hid hkey

/-- Whoever waits for a run of another key can be seen to do so. -/
theorem awaits_counterpart (h : Alike hidden waits waits' s.coordinator s'.coordinator)
    {r : Registration} (hr : r ∈ s.coordinator.registry) (hne : r.key ≠ hidden) :
    ∃ r' ∈ s'.coordinator.registry,
      r.veil hidden = r'.veil hidden ∧ r'.awaitedRun = r.awaitedRun := by
  obtain ⟨r', hr', hv⟩ := h.counterpart hr
  exact ⟨r', hr', hv, (Registration.eq_of_veil_other (·.awaitedRun) hne hv fun _ => rfl).symm⟩

/-- A run of another key goes on on both sides or on neither. -/
theorem Stage.mem_runs (h : Stage hidden s s' callbacks callbacks' waits waits' notes notes')
    {run : Run} (hne : run.key ≠ hidden) (hrun : run ∈ s.runs) : run ∈ s'.runs := by
  have hmem : run ∈ s.runs.filter (·.key != hidden) :=
    List.mem_filter.mpr ⟨hrun, by simpa using hne⟩
  rw [h.runs] at hmem
  exact (List.mem_filter.mp hmem).1

/-- A run of another key ends on both sides. -/
theorem Stage.finish (h : Stage hidden s s' callbacks callbacks' waits waits' notes notes')
    {run : Run} (hne : run.key ≠ hidden) (hknows : s.Knows run.id run.key)
    (hknows' : s'.Knows run.id run.key) (failed : Bool) :
    Stage hidden (s.finish run.id failed) (s'.finish run.id failed) callbacks callbacks' waits
      waits' notes notes' := by
  have hsane := h.sane.step (e := .finish run.id failed) trivial
  have hsane' := h.sane'.step (e := .finish run.id failed) trivial
  rw [System.step] at hsane hsane'
  have hruns : (s.runs.eraseP (·.id == run.id)).filter (·.key != hidden)
      = (s'.runs.eraseP (·.id == run.id)).filter (·.key != hidden) := by
    have hkeys : ∀ {s : System}, s.Knows run.id run.key → ∀ x ∈ s.runs, (x.id == run.id) = true →
        (x.key != hidden) = true := by
      intro s hk x hx hid
      rw [run_eq hk hx (by simpa using hid)]
      simpa using hne
    rw [filter_eraseP_of (hkeys hknows), filter_eraseP_of (hkeys hknows'), h.runs]
  have hkeyed : ∀ {s : System}, s.Sound → run ∈ s.runs → ∀ r ∈ s.coordinator.registry,
      r.awaitedRun = some run.id → r.key ≠ hidden :=
    fun hs hrun r hr hw => hs.books.keyed r hr run hrun hw ▸ hne
  obtain ⟨hno, e⟩ | ⟨x, hx, hid, hrest⟩ := h.sane.sound.finish_cases run.id failed
  · obtain ⟨-, e'⟩ | ⟨x', hx', hid', -⟩ := h.sane'.sound.finish_cases run.id failed
    · rw [e, e']
      exact h
    · exact absurd rfl (hno run (h.symm.mem_runs hne (run_eq hknows' hx' hid' ▸ hx')))
  · obtain rfl := (run_eq hknows hx hid).symm
    obtain ⟨hno', -⟩ | ⟨x', hx', hid', hrest'⟩ := h.sane'.sound.finish_cases run.id failed
    · exact absurd rfl (hno' run (h.mem_runs hne hx))
    · obtain rfl := (run_eq hknows' hx' hid').symm
      obtain ⟨hnobody, e⟩ | ⟨r, hr, hw, e⟩ := hrest <;>
        obtain ⟨hnobody', e'⟩ | ⟨r', hr', hw', e'⟩ := hrest' <;>
        rw [e] at hsane ⊢ <;> rw [e'] at hsane' ⊢
      · exact ⟨hsane, hsane', h.coordinators, h.alive, hruns, h.callbacks, h.notes⟩
      · obtain ⟨q, hq, -, hqw⟩ := awaits_counterpart h.coordinators.symm hr'
          (hkeyed h.sane'.sound hx' r' hr' hw')
        exact absurd (hqw.trans hw') (hnobody q hq)
      · obtain ⟨q, hq, -, hqw⟩ := awaits_counterpart h.coordinators hr
          (hkeyed h.sane.sound hx r hr hw)
        exact absurd (hqw.trans hw) (hnobody' q hq)
      · have hrne := hkeyed h.sane.sound hx r hr hw
        obtain ⟨q, hq, hv, hqw⟩ := awaits_counterpart h.coordinators hr hrne
        obtain ⟨hf, hname⟩ := Registration.awaitedRun_eq_some.mp hw
        obtain ⟨hf', hname'⟩ := Registration.awaitedRun_eq_some.mp hw'
        have hqname := (Registration.awaitedRun_eq_some.mp (hqw.trans hw)).2
        obtain rfl := h.sane'.sound.books.runId_unique hq hr' (hqname.trans hname'.symm)
        have hsettle := h.coordinators.settle hr hr'
          (r.afterRun_sameTimer run s.coordinator.clock.wall failed)
          (q.afterRun_sameTimer run s.coordinator.clock.wall failed)
          (h.sane.sound.tidy.timer_none hr hf) (h.sane'.sound.tidy.timer_none hr' hf')
          ((r.afterRun_sameTimer run _ failed).key ▸ hrne) (veil_afterRun hv run _ failed)
        refine ⟨hsane, hsane', ?_, h.alive, hruns, h.callbacks, h.notes⟩
        rw [← h.coordinators.clock]
        exact hsettle

/-! ### Notes -/

theorem Stage.note (h : Stage hidden s s' callbacks callbacks' waits waits' notes notes')
    (n : Note) :
    Stage hidden s s' callbacks callbacks' waits waits' (n :: notes) (n :: notes') :=
  { h with notes := by rw [List.filter_cons, List.filter_cons, h.notes] }

theorem Stage.note_own (h : Stage hidden s s' callbacks callbacks' waits waits' notes notes')
    {n : Note} (hn : n.isOf hidden = true) :
    Stage hidden s s' callbacks callbacks' waits waits' (n :: notes) notes' :=
  { h with notes := by rw [List.filter_cons_of_neg (by simp [hn]), h.notes] }

/-! ### Tasks that wait -/

theorem Sane.wait (h : Sane s callbacks waits) {k : Wait} (hk : k.task.IsProper s) :
    Sane s callbacks (waits ++ [k]) where
  sound := h.sound
  awake := h.awake
  still := h.still
  faultless := h.faultless
  called := h.called
  tasks := by
    intro k' hk'
    rcases List.mem_append.mp hk' with hk' | hk'
    · exact h.tasks k' hk'
    · exact List.mem_singleton.mp hk' ▸ hk

theorem Sane.take (h : Sane s callbacks waits) (p : Wait → Bool) :
    Sane s callbacks (waits.eraseP p) :=
  ⟨h.sound, h.awake, h.still, h.faultless, h.called,
    fun k hk => h.tasks k (List.mem_of_mem_eraseP hk)⟩

/-- A task begins to wait on both sides. -/
theorem Stage.wait (h : Stage hidden s s' callbacks callbacks' waits waits' notes notes')
    (due : Instant) {task : Task} (hproper : task.IsProper s) (hproper' : task.IsProper s') :
    Stage hidden s s' callbacks callbacks' (waits ++ [⟨due, s.coordinator.armed, task⟩])
      (waits' ++ [⟨due, s'.coordinator.armed, task⟩]) notes notes' :=
  ⟨h.sane.wait hproper, h.sane'.wait hproper', h.coordinators.wait rfl rfl rfl rfl, h.alive, h.runs,
    h.callbacks, h.notes⟩

theorem Stage.wait_own (h : Stage hidden s s' callbacks callbacks' waits waits' notes notes')
    (due : Instant) {task : Task} (hproper : task.IsProper s) (hown : task.isOf hidden = true) :
    Stage hidden s s' callbacks callbacks' (waits ++ [⟨due, s.coordinator.armed, task⟩]) waits'
      notes notes' :=
  ⟨h.sane.wait hproper, h.sane', h.coordinators.wait_own rfl hown, h.alive, h.runs, h.callbacks,
    h.notes⟩

/-- A task that is the first entry to be due has its turn on both sides. -/
theorem Stage.take (h : Stage hidden s s' callbacks callbacks' waits waits' notes notes')
    {now : Instant} {k k' : Wait}
    (hf : (agenda s.coordinator.timers waits).find? (·.isDue now) = some (.wait k))
    (hf' : (agenda s'.coordinator.timers waits').find? (·.isDue now) = some (.wait k'))
    (hother : k.task.isOf hidden = false) (hother' : k'.task.isOf hidden = false) :
    Stage hidden s s' callbacks callbacks' (waits.eraseP fun k => decide (k.due ≤ now))
      (waits'.eraseP fun k => decide (k.due ≤ now)) notes notes' :=
  ⟨h.sane.take _, h.sane'.take _, h.coordinators.take hf hf' hother hother', h.alive, h.runs,
    h.callbacks, h.notes⟩

theorem Stage.take_own (h : Stage hidden s s' callbacks callbacks' waits waits' notes notes')
    {now : Instant} {k : Wait}
    (hf : (agenda s.coordinator.timers waits).find? (·.isDue now) = some (.wait k))
    (hown : k.task.isOf hidden = true) :
    Stage hidden s s' callbacks callbacks' (waits.eraseP fun k => decide (k.due ≤ now)) waits'
      notes notes' :=
  ⟨h.sane.take _, h.sane', h.coordinators.take_own hf hown, h.alive, h.runs, h.callbacks, h.notes⟩

/-! ### Callbacks -/

/-- The callbacks when one run more has begun under an id. -/
def counted (callbacks : List Callback) (id : Nat) : List Callback :=
  callbacks.map fun b => if b.id == id then { b with calls := b.calls + 1 } else b

theorem Sane.counted (h : Sane s callbacks waits) (id : Nat) :
    Sane s (counted callbacks id) waits where
  sound := h.sound
  awake := h.awake
  still := h.still
  faultless := h.faultless
  called := by
    intro b hb
    obtain ⟨q, hq, rfl⟩ := List.mem_map.mp hb
    have hcalled := h.called q hq
    split <;> exact hcalled
  tasks := h.tasks

theorem filter_counted (callbacks : List Callback) (id : Nat) :
    (counted callbacks id).filter (!·.isOf hidden)
      = counted (callbacks.filter (!·.isOf hidden)) id := by
  have htag : ((!·.isOf hidden) ∘ fun b : Callback =>
      if b.id == id then { b with calls := b.calls + 1 } else b) = fun b => !b.isOf hidden := by
    funext b
    show (!(if b.id == id then _ else b).isOf hidden) = _
    split <;> rfl
  rw [Simulation.counted, Simulation.counted, List.filter_map, htag]

/-- Whoever is called for a run that is going on is about the same key. -/
theorem Sane.key_of_called (h : Sane s callbacks waits) {b : Callback} (hb : b ∈ callbacks)
    {run : Run} (hrun : run ∈ s.runs) (hid : b.id = run.id) : keyOf? b.tag = some run.key := by
  obtain ⟨-, key, hkey, hknows⟩ := h.called b hb
  rw [hkey, hknows.runs run hrun hid.symm]

/-- A run of another key begins, and is counted, on both sides. -/
theorem Stage.counted (h : Stage hidden s s' callbacks callbacks' waits waits' notes notes')
    (id : Nat) : Stage hidden s s' (counted callbacks id) (counted callbacks' id) waits waits' notes
      notes' :=
  ⟨h.sane.counted id, h.sane'.counted id, h.coordinators, h.alive, h.runs,
    by rw [filter_counted, filter_counted, h.callbacks], h.notes⟩

theorem Stage.counted_own (h : Stage hidden s s' callbacks callbacks' waits waits' notes notes')
    {run : Run} (hrun : run ∈ s.runs) (hown : run.key = hidden) :
    Stage hidden s s' (Simulation.counted callbacks run.id) callbacks' waits waits'
      notes notes' := by
  refine ⟨h.sane.counted run.id, h.sane', h.coordinators, h.alive, h.runs, ?_, h.notes⟩
  have hother : ∀ b ∈ callbacks.filter (!·.isOf hidden),
      (if b.id == run.id then { b with calls := b.calls + 1 } else b) = b := by
    intro b hb
    obtain ⟨hb, hseen⟩ := List.mem_filter.mp hb
    have hid : b.id ≠ run.id := by
      intro hid
      have hkey := h.sane.key_of_called hb hrun hid
      simp [Callback.isOf, hkey, hown] at hseen
    simp [hid]
  rw [filter_counted, ← h.callbacks, Simulation.counted, List.map_congr_left hother, List.map_id']

/-- The callback of a run of another key is the same on both sides. -/
theorem Stage.callback (h : Stage hidden s s' callbacks callbacks' waits waits' notes notes')
    {run : Run} (hne : run.key ≠ hidden) (hrun : run ∈ s.runs) (hrun' : run ∈ s'.runs) :
    callbacks.find? (·.id == run.id) = callbacks'.find? (·.id == run.id) := by
  have hseen : ∀ {s : System} {callbacks : List Callback} {waits : List Wait},
      Sane s callbacks waits → run ∈ s.runs → callbacks.find? (·.id == run.id)
        = (callbacks.filter (!·.isOf hidden)).find? (·.id == run.id) := by
    intro s callbacks waits hs hrun
    rw [← List.head?_filter, ← List.head?_filter, List.filter_filter]
    congr 1
    refine List.filter_congr fun b hb => ?_
    cases hid : b.id == run.id with
    | false => simp
    | true =>
        have hkey := hs.key_of_called hb hrun (by simpa using hid)
        simp [Callback.isOf, hkey, hne]
  rw [hseen h.sane hrun, hseen h.sane' hrun', h.callbacks]

/-! ### Registering -/

/-- Whoever has just been registered is known under its handle. -/
theorem knows_register (hs : s.Sound) (ha : s.alive = true) {o : PollOptions} {handle : PollHandle}
    (hok : (s.coordinator.register o).2 = .ok handle) :
    (s.step (.register o)).Knows handle.id o.key := by
  obtain ⟨hno, -⟩ | ⟨-, hd, e⟩ := Coordinator.register_cases s.coordinator o
  · obtain ⟨e, he⟩ := Coordinator.register_refused hno
    exact absurd (he.symm.trans hok) (by simp)
  · have hid : handle.id = s.coordinator.nextId := by
      rw [e, Coordinator.append_answer] at hok
      split at hok
      · exact absurd hok (by simp)
      · rw [← Except.ok.inj hok, Coordinator.vacate_nextId]
    have hstep : s.step (.register o)
        = { s with coordinator := (s.coordinator.register o).1 } := if_pos ha
    obtain ⟨-, -, hrear⟩ := Coordinator.register_spec (o := o) hs.tidy hd
    rw [hstep, e]
    refine ⟨?_, fun r' hr' hid' => ?_, fun run hrun hid' => ?_⟩
    · rw [hid]
      show _ < (Coordinator.append _ o _).1.nextId
      rw [hrear.nextId, Coordinator.join, Coordinator.vacate_nextId]
      exact Nat.lt_succ_self _
    · obtain ⟨r, hr, ha⟩ := hrear.origin hr'
      have hrid : r.id = handle.id := (Registration.id_of_account ha).trans hid'
      rw [← Registration.eq_of_account (·.key) (fun _ => rfl) ha]
      rcases List.mem_append.mp hr with hr | hr
      · have := hs.tidy.fresh r (Coordinator.mem_vacate hs.tidy hr).1
        omega
      · rw [List.mem_singleton.mp hr]
        rfl
    · have := hs.books.known run hrun
      omega

/-- The callbacks after a registration, which may have been refused. -/
def enrolled (callbacks : List Callback) (tag : String) (script : Script) :
    Except RegisterError PollHandle → List Callback
  | .ok handle => callbacks ++ [{ id := handle.id, tag, script }]
  | .error _ => callbacks

theorem Sane.enroll (h : Sane s callbacks waits) (ha : s.alive = true) {o : PollOptions}
    {tag : String} {script : Script} (htag : keyOf? tag = some o.key)
    (hquiet : script.isQuiet = true) :
    Sane (s.step (.register o)) (enrolled callbacks tag script (s.coordinator.register o).2)
      waits := by
  have hstep := h.step (e := .register o) trivial
  cases hok : (s.coordinator.register o).2 with
  | error e => exact hstep
  | ok handle =>
      refine { hstep with called := fun b hb => ?_ }
      rcases List.mem_append.mp hb with hb | hb
      · exact hstep.called b hb
      · rw [List.mem_singleton.mp hb]
        exact ⟨hquiet, o.key, htag, knows_register h.sound ha hok⟩

/-- A poll is registered on both sides; if it is of the veiled key its script may differ. -/
theorem Stage.enroll (h : Stage hidden s s' callbacks callbacks' waits waits' notes notes')
    (ha : s.alive = true) {o : PollOptions} {tag : String} {script script' : Script}
    (htag : keyOf? tag = some o.key) (hquiet : script.isQuiet = true)
    (hquiet' : script'.isQuiet = true) (hsame : o.key ≠ hidden → script = script') :
    Stage hidden (s.step (.register o)) (s'.step (.register o))
      (enrolled callbacks tag script (s.coordinator.register o).2)
      (enrolled callbacks' tag script' (s'.coordinator.register o).2)
      waits waits' notes notes' := by
  have hcall := h.call (e := .register o) trivial (fun _ => rfl) fun h _ _ => h.register o
  refine ⟨h.sane.enroll ha htag hquiet, h.sane'.enroll (h.alive ▸ ha) htag hquiet',
    hcall.coordinators, hcall.alive, hcall.runs, ?_, h.notes⟩
  by_cases hown : o.key = hidden
  · have hunseen : ∀ (callbacks : List Callback) (script : Script) (answer),
        (enrolled callbacks tag script answer).filter (!·.isOf hidden)
          = callbacks.filter (!·.isOf hidden) := by
      intro callbacks script answer
      cases answer with
      | error e => rfl
      | ok handle => simp [enrolled, Callback.isOf, htag, hown]
    rw [hunseen, hunseen, h.callbacks]
  · rw [← hsame hown, h.coordinators.register_answer hown]
    cases (s'.coordinator.register o).2 with
    | error e => exact h.callbacks
    | ok handle => rw [enrolled, enrolled, List.filter_append, List.filter_append, h.callbacks]

/-! ### Draws -/

theorem Sane.withDraws (h : Sane s callbacks waits) (draws : Draws) :
    Sane { s with coordinator := { s.coordinator with draws } } callbacks waits where
  sound := ⟨h.sound.tidy.of_registry rfl rfl rfl rfl rfl, h.sound.books.of_registry rfl rfl,
    by simp [h.awake], h.sound.gone⟩
  awake := h.awake
  still := h.still
  faultless := h.faultless
  called := by
    intro b hb
    obtain ⟨hquiet, key, htag, hknows⟩ := h.called b hb
    exact ⟨hquiet, key, htag, hknows.known, hknows.registry, hknows.runs⟩
  tasks := by
    intro k hk
    have hproper := h.tasks k hk
    cases htask : k.task with
    | endRun run tag call progress =>
        rw [htask] at hproper
        obtain ⟨htag, hknows, hquiet⟩ := hproper
        exact ⟨htag, ⟨hknows.known, hknows.registry, hknows.runs⟩, hquiet⟩
    | listener | follower | monitor => trivial

/-- The draws that were made are forgotten on both sides. -/
theorem Stage.withDraws (h : Stage hidden s s' callbacks callbacks' waits waits' notes notes')
    (draws : Draws) :
    Stage hidden { s with coordinator := { s.coordinator with draws } }
      { s' with coordinator := { s'.coordinator with draws } } callbacks callbacks' waits waits'
      notes notes' :=
  ⟨h.sane.withDraws draws, h.sane'.withDraws draws, h.coordinators.withDraws draws, h.alive, h.runs,
    h.callbacks, h.notes⟩

end FeedPoller.Simulation
