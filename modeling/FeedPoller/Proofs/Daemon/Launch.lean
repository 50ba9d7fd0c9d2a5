/-
A daemon whose settings are accepted starts with all its feeds.

The settings are judged before the start, the registrations one by one during it, and the
two know nothing of each other.  What the validator accepts the coordinator accepts too
(`accepted_of_fault`), and the validator's word about keys that come twice is what keeps a
registration from replacing one before it: a key that is new joins at the end and leaves
everything else as it was.  So the registrations are followed along the list of the feeds,
with `Entered` for what is there after some of them.
-/
import FeedPoller.Proofs.Settings.Limits

namespace FeedPoller

namespace Coordinator

variable {c : Coordinator} {r : Registration}

/-! ### A feed that joins -/

/-- How the registration of a feed stands that has been made at a start. -/
structure Stands (c : Coordinator) (place : Nat) (f : FeedConfig) (r : Registration) : Prop where
  id : r.id = place
  order : r.order = place
  options : r.options = f.pollOptions
  gated : r.gateClosed c.gates = true → r.state = .paused ∧ r.timer = none
  timed : r.gateClosed c.gates = false → r.state = .scheduled ∧
    ∃ t ∈ c.timers, t.poll = place ∧ c.clock.now.after? (c.staggerDelay place) = some t.deadline

/-- A feed joins at the end, with a timer of its own if no gate is closed to it. -/
theorem append_feed {f : FeedConfig} (hfresh : ∀ q ∈ c.registry, q.id ≠ c.nextId)
    (hplace : c.nextId = c.registry.length)
    (hnamed : (c.newcomer f.pollOptions none).gateClosed c.gates = false →
      (c.clock.now.after? (c.staggerDelay c.registry.length)).isSome) :
    ∃ r more armed, c.append f.pollOptions none =
        ({ c.join r with timers := c.timers ++ more, armed }, .ok ⟨f.key, c.nextId⟩) ∧
      Stands { c.join r with timers := c.timers ++ more, armed } c.nextId f r := by
  have hanswer := append_answer c f.pollOptions none
  obtain ⟨hgate, e⟩ | ⟨hgate, -⟩ := append_cases c f.pollOptions none
  · have hput : (c.join (c.newcomer f.pollOptions none)).put
        { c.newcomer f.pollOptions none with state := .paused } =
        c.join { c.newcomer f.pollOptions none with state := .paused } := put_join hfresh rfl
    have hpaused := e.trans hput
    rw [hgate] at hanswer
    refine ⟨{ c.newcomer f.pollOptions none with state := .paused }, [], c.armed, ?_, ?_⟩
    · rw [List.append_nil]
      exact Prod.ext hpaused hanswer
    · refine ⟨rfl, hplace.symm, rfl, fun _ => ⟨rfl, rfl⟩, fun hopen => ?_⟩
      exact absurd (hgate.symm.trans hopen) (by simp)
  · obtain ⟨deadline, hdeadline⟩ := Option.isSome_iff_exists.mp (hnamed hgate)
    rw [hgate, hdeadline] at hanswer
    refine ⟨_, _, _, Prod.ext (append_open hfresh hgate hdeadline) hanswer, rfl, hplace.symm, rfl,
      fun hclosed => ?_,
      fun _ => ⟨rfl, _, List.mem_append_right _ (List.mem_singleton.mpr rfl), rfl, ?_⟩⟩
    · exact absurd (hgate.symm.trans hclosed) (by simp)
    · rw [hplace]
      exact hdeadline

/-! ### One feed after the other -/

/-- What is there after some feeds have been registered with a coordinator that had none. -/
structure Entered (start : Coordinator) (done : List FeedConfig) (c : Coordinator) : Prop where
  sound : System.Sound { coordinator := c }
  /-- The start takes no time, and the gates stay as they were. -/
  setting : c.setting = start.setting
  running : c.disposed = false
  next : c.nextId = done.length
  keys : c.keys = done.map (·.key)
  places : ∀ i f, done[i]? = some f → ∃ r, c.registry[i]? = some r ∧ c.Stands i f r

theorem Entered.length {start : Coordinator} {done : List FeedConfig}
    (h : Entered start done c) : c.registry.length = done.length := by
  simpa [Coordinator.keys] using congrArg List.length h.keys

theorem Stands.of_grown {place : Nat} {f : FeedConfig} {c' : Coordinator} (h : c.Stands place f r)
    (hs : c'.setting = c.setting) (ht : ∀ t ∈ c.timers, t ∈ c'.timers) : c'.Stands place f r := by
  have hgates : c'.gates = c.gates := congrArg (·.1) hs
  have hclock : c'.clock = c.clock := congrArg (·.2.1) hs
  have hconfig : c'.config = c.config := congrArg (·.2.2) hs
  refine ⟨h.id, h.order, h.options, ?_, ?_⟩
  · rw [hgates]
    exact h.gated
  · rw [hgates, hclock, staggerDelay, hconfig]
    intro hopen
    obtain ⟨hstate, t, hmem, hpoll, hdeadline⟩ := h.timed hopen
    exact ⟨hstate, t, ht t hmem, hpoll, hdeadline⟩

/-- The next feed is entered after the others. -/
theorem Entered.step {start : Coordinator} {done : List FeedConfig} {f : FeedConfig}
    (h : Entered start done c) (hfault : f.pollOptions.fault? = none)
    (hnew : f.key ∉ done.map (·.key))
    (hnamed : (start.newcomer f.pollOptions none).gateClosed start.gates = false →
      (start.clock.now.after? (start.staggerDelay done.length)).isSome) :
    ∃ c', c.register f.pollOptions = (c', .ok ⟨f.key, done.length⟩) ∧
      Entered start (done ++ [f]) c' := by
  have hregister : c.register f.pollOptions = c.append f.pollOptions none := by
    refine register_of_new hfault h.running fun q hq hkey => hnew ?_
    rw [← h.keys, ← show q.key = f.key from hkey]
    exact List.mem_map_of_mem hq
  have hgates : c.gates = start.gates := congrArg (·.1) h.setting
  have hclock : c.clock = start.clock := congrArg (·.2.1) h.setting
  have hconfig : c.config = start.config := congrArg (·.2.2) h.setting
  obtain ⟨r, more, armed, happend, hstands⟩ := append_feed (c := c) (f := f)
    (fun q hq => Nat.ne_of_lt (h.sound.tidy.fresh q hq)) (h.next.trans h.length.symm)
    (by
      rw [hgates, hclock, staggerDelay, hconfig, h.length]
      exact hnamed)
  have hsound : System.Sound { coordinator := (c.register f.pollOptions).1 } :=
    h.sound.step (.register f.pollOptions)
  rw [hregister, happend] at hsound
  refine ⟨_, by rw [hregister, happend, h.next], hsound, h.setting, h.running, ?_, ?_, ?_⟩
  · simp [join, h.next]
  · have hkeys : c.registry.map (·.key) = done.map (·.key) := h.keys
    have hkey : r.key = f.key := congrArg PollOptions.key hstands.options
    simp [Coordinator.keys, join, hkeys, hkey]
  · intro i g hg
    by_cases hi : i < done.length
    · rw [List.getElem?_append_left hi] at hg
      obtain ⟨q, hq, hqstands⟩ := h.places i g hg
      refine ⟨q, ?_, hqstands.of_grown rfl fun t ht => List.mem_append_left more ht⟩
      rw [← hq]
      exact List.getElem?_append_left (by rw [h.length]; exact hi)
    · rw [List.getElem?_append_right (Nat.le_of_not_lt hi), List.getElem?_singleton] at hg
      have hlast : i - done.length = 0 ∧ f = g := by simpa using hg
      obtain ⟨hzero, rfl⟩ := hlast
      obtain rfl : i = done.length := by omega
      rw [← h.next]
      refine ⟨r, ?_, hstands⟩
      simp [join, h.next, h.length]

/-- All feeds are entered, in their order. -/
theorem Entered.registerFeeds {start : Coordinator} {rest done : List FeedConfig}
    (h : Entered start done c) (hfault : ∀ f ∈ rest, f.pollOptions.fault? = none)
    (hnodup : ((done ++ rest).map (·.key)).Nodup)
    (hnamed : ∀ i f, rest[i]? = some f →
      (start.newcomer f.pollOptions none).gateClosed start.gates = false →
      (start.clock.now.after? (start.staggerDelay (done.length + i))).isSome) :
    ∃ c', c.registerFeeds rest =
        (c', .ok (rest.mapIdx fun i f => ⟨f.key, done.length + i⟩)) ∧
      Entered start (done ++ rest) c' := by
  induction rest generalizing c done with
  | nil => exact ⟨c, rfl, by rwa [List.append_nil]⟩
  | cons f rest ih =>
    have hnew : f.key ∉ done.map (·.key) := by
      rw [List.map_append, List.map_cons] at hnodup
      intro hmem
      exact (List.nodup_append.mp hnodup).2.2 _ hmem _ List.mem_cons_self rfl
    obtain ⟨c', hregister, hentered⟩ :=
      h.step (hfault f List.mem_cons_self) hnew (hnamed 0 f rfl)
    have hsplit : (done ++ [f]) ++ rest = done ++ f :: rest := by simp
    have hplaces : ∀ i, (done ++ [f]).length + i = done.length + (i + 1) := by
      intro i
      simp only [List.length_append, List.length_singleton]
      omega
    have hrest : ∀ i g, rest[i]? = some g →
        (start.newcomer g.pollOptions none).gateClosed start.gates = false →
        (start.clock.now.after? (start.staggerDelay ((done ++ [f]).length + i))).isSome := by
      intro i g hg hopen
      rw [hplaces]
      exact hnamed (i + 1) g hg hopen
    obtain ⟨c'', hfeeds, hall⟩ :=
      ih hentered (fun g hg => hfault g (List.mem_cons_of_mem _ hg)) (by rwa [hsplit]) hrest
    refine ⟨c'', ?_, by rwa [hsplit] at hall⟩
    rw [Coordinator.registerFeeds, hregister]
    simp only [hfeeds, hplaces, List.mapIdx_cons, Nat.add_zero]
    rfl

/-! ### The start of a daemon -/

/-- The coordinator of a session that has learnt whether somebody is signed in. -/
def prepared (config : CoordinatorConfig) (authenticated : Bool) (clock : Clock) (draws : Draws) :
    Coordinator :=
  { config, clock, draws, listening := true, gates := ⟨authenticated, true⟩ }

theorem launch_eq (settings : Settings) (authenticated : Bool) (clock : Clock) (draws : Draws) :
    launch settings authenticated clock draws =
      (prepared settings.polling.coordinatorConfig authenticated clock draws).registerFeeds
        settings.feeds := by
  cases authenticated <;> rfl

theorem entered_prepared (config : CoordinatorConfig) (authenticated : Bool) (clock : Clock)
    (draws : Draws) :
    Entered (prepared config authenticated clock draws) []
      (prepared config authenticated clock draws) where
  sound := by
    have hlistening := (System.sound_initial config clock draws).step .listen
    cases authenticated with
    | true => exact hlistening
    | false => exact hlistening.step .pauseAuthenticated
  setting := rfl
  running := rfl
  next := rfl
  keys := rfl
  places := by simp

end Coordinator

/-- Settings that the validator accepts, or that a file was read as. -/
def Settings.Accepted (settings : Settings) : Prop :=
  settings.validate = .ok () ∨ ∃ path file, Settings.load path file = .ok settings

theorem Settings.Accepted.fault {settings : Settings} (h : settings.Accepted) :
    settings.fault? = none := by
  rcases h with hvalid | ⟨path, file, hload⟩
  · unfold Settings.validate at hvalid
    cases hfault : settings.fault? with
    | none => rfl
    | some e => simp [hfault] at hvalid
  · unfold Settings.load at hload
    split at hload
    · -- without a file there are the defaults
      cases hload
      decide
    · split at hload
      · cases hload
      · split at hload
        · cases hload
        · split at hload
          · cases hload
          · rename_i hfault
            cases hload
            exact hfault

namespace Coordinator

/--
**Accepted settings start completely.**  Whoever is signed in and however many feeds there
are, every registration succeeds, and at the end the registry holds the feeds in the order
of the settings, each with its place and its options.  One for signed-in users is paused
without a timer if nobody is signed in; any other is scheduled with one timer, which is due
as many stagger steps after the start as there are feeds before it, where steps are counted
as far as 32 bits go.
-/
theorem launch_complete {settings : Settings} (hok : settings.Accepted) (authenticated : Bool)
    (clock : Clock) (draws : Draws)
    (hnamed : ∀ i f, settings.feeds[i]? = some f → (f.requiresAuth && !authenticated) = false →
      (clock.now.after? (settings.polling.coordinatorConfig.staggerStep.times
        (min i (Nat.pow 2 32 - 1)))).isSome) :
    ∃ c, launch settings authenticated clock draws =
        (c, .ok (settings.feeds.mapIdx fun i f => ⟨f.key, i⟩)) ∧
      c.keys = settings.feeds.map (·.key) ∧ c.gates = ⟨authenticated, true⟩ ∧
      ∀ i f, settings.feeds[i]? = some f → ∃ r, c.registry[i]? = some r ∧
        r.order = i ∧ r.options = f.pollOptions ∧
        (r.gateClosed c.gates = true → r.state = .paused ∧ System.Untimed { coordinator := c } r) ∧
        (r.gateClosed c.gates = false → r.state = .scheduled ∧
          ∃ t, System.TimedBy { coordinator := c } r t ∧
            t.deadline.nanos = clock.now.nanos +
              min i (Nat.pow 2 32 - 1) * settings.polling.coordinatorConfig.staggerStep.nanos ∧
            (i < Nat.pow 2 32 → t.deadline.nanos = clock.now.nanos +
              i * settings.polling.coordinatorConfig.staggerStep.nanos)) := by
  obtain ⟨hfault, hnodup⟩ := Settings.accepted_of_fault hok.fault
  obtain ⟨c, hfeeds, hentered⟩ :=
    (entered_prepared settings.polling.coordinatorConfig authenticated clock draws).registerFeeds
      hfault hnodup (by
        intro i f hf hopen
        rw [List.length_nil, Nat.zero_add]
        refine hnamed i f hf ?_
        simpa [prepared, newcomer, Registration.gateClosed, FeedConfig.pollOptions] using hopen)
  have hgates : c.gates = ⟨authenticated, true⟩ := congrArg (·.1) hentered.setting
  have hclock : c.clock = clock := congrArg (·.2.1) hentered.setting
  have hconfig : c.config = settings.polling.coordinatorConfig :=
    congrArg (·.2.2) hentered.setting
  refine ⟨c, ?_, hentered.keys, hgates, fun i f hf => ?_⟩
  · rw [launch_eq, hfeeds]
    simp
  · obtain ⟨r, hr, hstands⟩ := hentered.places i f hf
    have hmem : r ∈ c.registry := List.mem_of_getElem? hr
    refine ⟨r, hr, hstands.order, hstands.options, fun hclosed => ?_, fun hopen => ?_⟩
    · obtain ⟨hstate, hnone⟩ := hstands.gated hclosed
      exact ⟨hstate, hentered.sound.untimed hmem hnone⟩
    · obtain ⟨hstate, t, ht, hpoll, hdeadline⟩ := hstands.timed hopen
      rw [hclock, staggerDelay, hconfig] at hdeadline
      have hdue := Instant.after_times hdeadline
      refine ⟨hstate, t, hentered.sound.timedBy ht hmem (hstands.id.trans hpoll.symm), hdue, ?_⟩
      intro hsmall
      have hplace : min i (Nat.pow 2 32 - 1) = i := Nat.min_eq_left (Nat.le_pred_of_lt hsmall)
      rw [hdue, hplace]

/-- Nobody is signed in, and one of the two feeds is for signed-in users. -/
theorem launch_complete_commuting :
    Settings.commuting.Accepted ∧
    (∀ i f, Settings.commuting.feeds[i]? = some f → (f.requiresAuth && !false) = false →
      ((default : Clock).now.after? (Settings.commuting.polling.coordinatorConfig.staggerStep.times
        (min i (Nat.pow 2 32 - 1)))).isSome) ∧
    ∃ c, launch Settings.commuting false default ⟨[], []⟩ =
        (c, .ok [⟨"trains", 0⟩, ⟨"roads", 1⟩]) ∧
      c.keys = ["trains", "roads"] := by
  have hok : Settings.commuting.Accepted := .inl (by rfl)
  have hnamed : ∀ i f, Settings.commuting.feeds[i]? = some f → (f.requiresAuth && !false) = false →
      ((default : Clock).now.after? (Settings.commuting.polling.coordinatorConfig.staggerStep.times
        (min i (Nat.pow 2 32 - 1)))).isSome := by
    intro i f hf _
    have hi : i < 2 := List.getElem?_eq_some_iff.mp hf |>.1
    rw [Instant.after_isSome]
    refine Nat.lt_of_le_of_lt (Nat.add_le_add_left (Duration.times_le
      (Nat.le_trans (Nat.min_le_left _ _) (Nat.le_of_lt_succ hi))) _) ?_
    decide +kernel
  obtain ⟨c, hlaunch, hkeys, -⟩ := launch_complete hok false default ⟨[], []⟩ hnamed
  exact ⟨hok, hnamed, c, hlaunch, hkeys⟩

end Coordinator

end FeedPoller
