/-
Worlds that differ only in how the runs of one key go.

Two worlds are twins if nothing can be told between their stages through the veil over a key
and all that surrounds the stages is the same: signals, watched values, followers and monitors
know nothing of runs.  The store of feeds, which knows of runs, and the handles, which nobody
but the script looks at, may be what they like.

Here it is shown that twins stay twins when the same is done in both, for everything that a
script or a run can do in a world.
-/
import FeedPoller.Proofs.Isolation.Stage

namespace FeedPoller

open Simulation

namespace Simulation

namespace World

/-- What a run can do anything about. -/
def staged (w : World) : System × List Callback × List Wait × List Note :=
  (w.system, w.callbacks, w.waiting, w.notes)

/-- A world without its stage, its store and its handles. -/
def bare (w : World) : World :=
  { w with
    system := .initial {} ⟨⟨0⟩, beginning⟩ ⟨[], []⟩
    store := {}
    callbacks := []
    handles := []
    waiting := []
    notes := [] }

/-- Whether anybody holds the coordinator. -/
def isHeld (w : World) : Bool := w.held || w.followers.any (·.running)

end World

/-- Nothing can be told between two worlds through the veil over a key. -/
structure Twins (hidden : String) (w w' : World) : Prop where
  stage : Stage hidden w.system w'.system w.callbacks w'.callbacks w.waiting w'.waiting w.notes
    w'.notes
  bare : w.bare = w'.bare
  alive : w.isHeld = true → w.system.alive = true
  session : w.session = true → w.held = true

variable {hidden : String} {w w' : World} {e : Event}

theorem Twins.held_eq (h : Twins hidden w w') : w.held = w'.held :=
  (congrArg World.held h.bare :)

theorem Twins.session_eq (h : Twins hidden w w') : w.session = w'.session :=
  (congrArg World.session h.bare :)

theorem Twins.tried (h : Twins hidden w w') : w.tried = w'.tried :=
  (congrArg World.tried h.bare :)

theorem Twins.channels (h : Twins hidden w w') : w.channels = w'.channels :=
  (congrArg World.channels h.bare :)

theorem Twins.listener (h : Twins hidden w w') : w.listener = w'.listener :=
  (congrArg World.listener h.bare :)

theorem Twins.watches (h : Twins hidden w w') : w.watches = w'.watches :=
  (congrArg World.watches h.bare :)

theorem Twins.followers (h : Twins hidden w w') : w.followers = w'.followers :=
  (congrArg World.followers h.bare :)

theorem Twins.healthSender (h : Twins hidden w w') : w.healthSender = w'.healthSender :=
  (congrArg World.healthSender h.bare :)

theorem Twins.authSender (h : Twins hidden w w') : w.authSender = w'.authSender :=
  (congrArg World.authSender h.bare :)

theorem Twins.monitors (h : Twins hidden w w') : w.monitors = w'.monitors :=
  (congrArg World.monitors h.bare :)

theorem Twins.isHeld (h : Twins hidden w w') : w.isHeld = w'.isHeld := by
  unfold World.isHeld
  rw [h.held_eq, h.followers]

/-- The coordinator that a script holds is there. -/
theorem Twins.alive_of_held (h : Twins hidden w w') (hheld : w'.held = true) :
    w.system.alive = true :=
  h.alive (by simp [World.isHeld, h.held_eq, hheld])

theorem Twins.now (h : Twins hidden w w') : w.now = w'.now :=
  congrArg Clock.now h.stage.coordinators.clock

theorem Twins.symm (h : Twins hidden w w') : Twins hidden w' w :=
  ⟨h.stage.symm, h.bare.symm, fun hh => h.stage.alive ▸ h.alive (h.isHeld.trans hh),
    fun hs => h.held_eq ▸ h.session (h.session_eq.trans hs)⟩

/-- Twins stay twins when their stages do and nothing else is touched. -/
theorem Twins.staged {u u' : World} (h : Twins hidden w w')
    (hs : Stage hidden u.system u'.system u.callbacks u'.callbacks u.waiting u'.waiting u.notes
      u'.notes) (hu : u.bare = w.bare) (hu' : u'.bare = w'.bare)
    (halive : u.system.alive = w.system.alive) : Twins hidden u u' where
  stage := hs
  bare := hu.trans (h.bare.trans hu'.symm)
  alive := by
    have hheld : u.isHeld = w.isHeld := by
      have hh : u.held = w.held := (congrArg World.held hu :)
      have hf : u.followers = w.followers := (congrArg World.followers hu :)
      unfold World.isHeld
      rw [hh, hf]
    rw [hheld, halive]
    exact h.alive
  session := by
    have hh : u.held = w.held := (congrArg World.held hu :)
    have hs : u.session = w.session := (congrArg World.session hu :)
    rw [hh, hs]
    exact h.session

/-- Twins stay twins when the same is done to what surrounds their stages. -/
theorem Twins.map (h : Twins hidden w w') (f : World → World)
    (hstage : ∀ w : World, (f w).staged = w.staged) (hbare : ∀ w : World, (f w).bare = f w.bare)
    (halive : (f w).isHeld = true → w.system.alive = true)
    (hsession : (f w).session = true → (f w).held = true) : Twins hidden (f w) (f w') where
  stage := by
    have hsys : ∀ w : World, (f w).system = w.system := fun w => congrArg (·.1) (hstage w)
    have hcall : ∀ w : World, (f w).callbacks = w.callbacks := fun w => congrArg (·.2.1) (hstage w)
    have hwait : ∀ w : World, (f w).waiting = w.waiting := fun w => congrArg (·.2.2.1) (hstage w)
    have hnote : ∀ w : World, (f w).notes = w.notes := fun w => congrArg (·.2.2.2) (hstage w)
    rw [hsys, hsys, hcall, hcall, hwait, hwait, hnote, hnote]
    exact h.stage
  bare := by rw [hbare, hbare, h.bare]
  alive := by
    have hsys : (f w).system = w.system := congrArg (·.1) (hstage w)
    rw [hsys]
    exact halive
  session := hsession

/-! ### Notes and tasks -/

theorem Twins.note (h : Twins hidden w w') (tag : String) (call : Nat) (what : Happening) :
    Twins hidden (w.note tag call what) (w'.note tag call what) := by
  have hstage := h.stage.note ⟨w.millis, tag, call, what⟩
  have hmillis : w.millis = w'.millis := congrArg Instant.millis h.now
  unfold World.note
  rw [← hmillis]
  exact h.staged hstage rfl rfl rfl

theorem Twins.note_own (h : Twins hidden w w') {tag : String} (htag : keyOf? tag = some hidden)
    (call : Nat) (what : Happening) : Twins hidden (w.note tag call what) w' :=
  h.staged (h.stage.note_own (n := ⟨w.millis, tag, call, what⟩) (by simp [Note.isOf, htag])) rfl rfl
    rfl

theorem Twins.wait (h : Twins hidden w w') (due : Instant) {task : Task}
    (hproper : task.IsProper w.system) (hproper' : task.IsProper w'.system) :
    Twins hidden (w.wait due task) (w'.wait due task) :=
  h.staged (h.stage.wait due hproper hproper') rfl rfl rfl

theorem Twins.wait_own (h : Twins hidden w w') (due : Instant) {task : Task}
    (hproper : task.IsProper w.system) (hown : task.isOf hidden = true) :
    Twins hidden (w.wait due task) w' :=
  h.staged (h.stage.wait_own due hproper hown) rfl rfl rfl

theorem Twins.isWoken (h : Twins hidden w w') {p : Task → Bool}
    (hp : ∀ task : Task, task.isOf hidden = true → p task = false) :
    w.isWoken p = w'.isWoken p := by
  unfold World.isWoken
  rw [h.now]
  exact h.stage.coordinators.any_waits hp

theorem Twins.wakeListener (h : Twins hidden w w') :
    Twins hidden w.wakeListener w'.wakeListener := by
  unfold World.wakeListener
  dsimp only
  rw [h.listener, h.isWoken (by intro task; cases task <;> simp [Task.isOf])]
  split
  · exact h
  · rw [h.now]
    exact h.wait _ trivial trivial

theorem Twins.wakeFollower (h : Twins hidden w w') (index : Nat) :
    Twins hidden (w.wakeFollower index) (w'.wakeFollower index) := by
  unfold World.wakeFollower
  dsimp only
  rw [h.isWoken (by intro task; cases task <;> simp [Task.isOf])]
  split
  · exact h
  · rw [h.now]
    exact h.wait _ trivial trivial

theorem Twins.wakeFollowersOf (h : Twins hidden w w') (source : Source) :
    Twins hidden (w.wakeFollowersOf source) (w'.wakeFollowersOf source) := by
  unfold World.wakeFollowersOf
  rw [h.followers]
  generalize w'.followers.zipIdx = l
  induction l generalizing w w' with
  | nil => exact h
  | cons entry rest ih =>
      refine ih ?_
      dsimp only
      split
      · exact h.wakeFollower _
      · exact h

/-! ### Letting go -/

theorem Twins.isOpen (h : Twins hidden w w') (channel : Channel) :
    w.isOpen channel = w'.isOpen channel := by
  unfold World.isOpen
  rw [h.session_eq, h.followers]

theorem Twins.noticeClosing (h : Twins hidden w w') :
    Twins hidden w.noticeClosing w'.noticeClosing := by
  unfold World.noticeClosing
  rw [h.listener]
  cases w'.listener with
  | none => exact h
  | some l =>
      dsimp only
      rw [h.channels]
      cases w'.channels[l.channel]? with
      | none => exact h
      | some channel =>
          dsimp only
          rw [h.isOpen]
          split
          · exact h
          · exact h.wakeListener

theorem Twins.noticeRelease (h : Twins hidden w w') :
    Twins hidden w.noticeRelease w'.noticeRelease := by
  have hrelease : ∀ w : World, w.noticeRelease
      = (if w.isHeld then w else { w with system := w.system.step .release }).noticeClosing :=
    fun _ => rfl
  rw [hrelease, hrelease, ← h.isHeld]
  refine Twins.noticeClosing ?_
  split
  · exact h
  · next hno => exact ⟨h.stage.release, h.bare, fun hh => absurd hh hno, h.session⟩

/-! ### Calls -/

/-- The same call is made of both coordinators. -/
theorem Twins.event (h : Twins hidden w w') (he : System.Natural e) {f : Coordinator → Coordinator}
    (hcall : ∀ s : System, s.step e = s.call f)
    (hf : ∀ {c c' : Coordinator}, Coordinator.Alike hidden w.waiting w'.waiting c c' → c.Still →
      c'.Still → Coordinator.Alike hidden w.waiting w'.waiting (f c) (f c')) :
    Twins hidden { w with system := w.system.step e } { w' with system := w'.system.step e } := by
  refine h.staged (h.stage.call he hcall hf) rfl rfl ?_
  show (w.system.step e).alive = _
  rw [hcall, call_eq]

theorem Twins.call (h : Twins hidden w w') (ha : w.system.alive = true) (he : System.Natural e)
    {f : Coordinator → Coordinator} (hcall : ∀ s : System, s.step e = s.call f)
    (hf : ∀ {c c' : Coordinator}, Coordinator.Alike hidden w.waiting w'.waiting c c' → c.Still →
      c'.Still → Coordinator.Alike hidden w.waiting w'.waiting (f c) (f c')) :
    Twins hidden (w.withCoordinator (f w.system.coordinator))
      (w'.withCoordinator (f w'.system.coordinator)) := by
  have hevent := h.event he hcall hf
  rw [hcall, hcall, call_eq, call_eq, if_pos ha, if_pos (h.stage.alive ▸ ha)] at hevent
  exact hevent

/-- A script reaches the coordinator on both sides or on neither. -/
theorem Twins.reach (h : Twins hidden w w') {f f' : Coordinator → Coordinator × Answer}
    (hf : w.system.alive = true →
      Twins hidden (w.withCoordinator (f w.system.coordinator).1)
        (w'.withCoordinator (f' w'.system.coordinator).1)) :
    Twins hidden (w.reach f).1 (w'.reach f').1 := by
  unfold World.reach
  rw [h.held_eq]
  split
  · next hheld => exact hf (h.alive_of_held hheld)
  · exact h

theorem Twins.inSession (h : Twins hidden w w') {f f' : Coordinator → Coordinator × Answer}
    (hf : w.system.alive = true →
      Twins hidden (w.withCoordinator (f w.system.coordinator).1)
        (w'.withCoordinator (f' w'.system.coordinator).1)) :
    Twins hidden (w.inSession f).1 (w'.inSession f').1 := by
  unfold World.inSession
  rw [h.session_eq]
  split
  · exact h.reach hf
  · exact h

theorem Twins.setBackendAvailable (h : Twins hidden w w') (ha : w.system.alive = true)
    (available : Bool) :
    Twins hidden (w.withCoordinator (w.system.coordinator.setBackendAvailable available).1)
      (w'.withCoordinator (w'.system.coordinator.setBackendAvailable available).1) := by
  unfold Coordinator.setBackendAvailable
  rw [h.stage.coordinators.gates]
  split
  · exact h
  · split
    · exact h.call ha (e := .resumeHealthAware true) trivial (fun _ => rfl)
        fun hc hs hs' => hc.resumeHealthAware hs hs' true
    · exact h.call ha (e := .pauseHealthAware) trivial (fun _ => rfl)
        fun hc _ _ => hc.pauseHealthAware

theorem Twins.setAuthenticated (h : Twins hidden w w') (ha : w.system.alive = true)
    (authenticated : Bool) :
    Twins hidden (w.withCoordinator (w.system.coordinator.setAuthenticated authenticated).1)
      (w'.withCoordinator (w'.system.coordinator.setAuthenticated authenticated).1) := by
  unfold Coordinator.setAuthenticated
  rw [h.stage.coordinators.gates]
  split
  · exact h
  · split
    · exact h.call ha (e := .resumeAuthenticated) trivial (fun _ => rfl)
        fun hc hs hs' => hc.resumeAuthenticated hs hs'
    · exact h.call ha (e := .pauseAuthenticated) trivial (fun _ => rfl)
        fun hc _ _ => hc.pauseAuthenticated

/-! ### Operations -/

/-- What becomes of a world when a poll is registered, be it refused or not. -/
theorem register_held (hheld : w.held = true) (o : PollOptions) (script : Script) :
    ∃ handles, (w.register o script).1 = { w with
      system := { w.system with coordinator := (w.system.coordinator.register o).1 }
      callbacks := enrolled w.callbacks (Text.zeroPadded 3 w.tried ++ ":" ++ o.key) script
        (w.system.coordinator.register o).2
      tried := w.tried + 1
      handles } := by
  refine ⟨(w.register o script).1.handles, ?_⟩
  unfold World.register
  rw [hheld]
  dsimp only
  cases w.system.coordinator.register o with
  | mk c answer => cases answer <;> rfl

theorem Twins.register (h : Twins hidden w w') (o : PollOptions) {script script' : Script}
    (hquiet : script.isQuiet = true) (hquiet' : script'.isQuiet = true)
    (hsame : o.key ≠ hidden → script = script') :
    Twins hidden (w.register o script).1 (w'.register o script').1 := by
  cases hheld : w.held with
  | false =>
      have hheld' : w'.held = false := h.held_eq ▸ hheld
      have hdropped : ∀ {w : World}, w.held = false → ∀ script, (w.register o script).1 = w := by
        intro w hheld script
        simp [World.register, hheld]
      rw [hdropped hheld, hdropped hheld']
      exact h
  | true =>
      have ha : w.system.alive = true := h.alive_of_held (h.held_eq ▸ hheld)
      have henroll := h.stage.enroll ha (keyOf?_tag w.tried o.key) hquiet hquiet' hsame
      have hstep : ∀ {s : System}, s.alive = true → s.step (.register o)
          = { s with coordinator := (s.coordinator.register o).1 } := fun ha => if_pos ha
      rw [hstep ha, hstep (h.stage.alive ▸ ha)] at henroll
      obtain ⟨handles, e⟩ := register_held hheld o script
      obtain ⟨handles', e'⟩ := register_held (h.held_eq ▸ hheld) o script'
      rw [e, e', ← h.tried]
      exact ⟨henroll, congrArg (fun u : World => { u with tried := w.tried + 1 }) h.bare, h.alive,
        h.session⟩

theorem Twins.emit (h : Twins hidden w w') (signal : Nat) :
    Twins hidden (w.emit signal).1 (w'.emit signal).1 := by
  have hlisteners : w.listeners signal = w'.listeners signal := by
    unfold World.listeners
    rw [h.listener]
  unfold World.emit
  dsimp only
  rw [hlisteners]
  split
  · exact h
  · refine Twins.wakeListener ?_
    exact h.map (fun u => { u with
        channels := u.channels.modify signal fun c => { c with sent := c.sent + 1 } })
      (fun _ => rfl) (fun _ => rfl) h.alive h.session

theorem Twins.focusSetup (h : Twins hidden w w') (ha : w.system.alive = true) (signal : Nat)
    (channel : Channel) : Twins hidden (w.focusSetup signal channel).1
      (w'.focusSetup signal channel).1 := by
  have hlisten := h.call ha (e := .listen) trivial (fun _ => rfl) fun hc _ _ => hc.listen.1
  unfold World.focusSetup
  dsimp only
  rw [h.stage.coordinators.listen.2]
  split
  · refine Twins.wakeListener ?_
    exact hlisten.map (fun u => { u with
        listener := some { channel := signal, place := .joining channel.sent } })
      (fun _ => rfl) (fun _ => rfl) hlisten.alive hlisten.session
  · exact hlisten

theorem Twins.dispose (h : Twins hidden w w') (ha : w.system.alive = true) :
    Twins hidden w.dispose w'.dispose := by
  unfold World.dispose
  refine Twins.wakeListener ?_
  have hstop := h.map (fun u => { u with
      listener := u.listener.map fun l => { l with stopping := true } })
    (fun _ => rfl) (fun _ => rfl) h.alive h.session
  exact hstop.call ha (e := .dispose) trivial (fun _ => rfl) fun hc _ _ => hc.dispose

theorem Twins.keptChannel? (h : Twins hidden w w') (signal : Nat) :
    w.keptChannel? signal = w'.keptChannel? signal := by
  unfold World.keptChannel?
  rw [h.channels]

/-! ### One operation -/

/-- What a script does to the coordinator leaves twins if it leaves twin coordinators. -/
theorem Twins.change (h : Twins hidden w w') (he : System.Natural e) {f : Coordinator → Coordinator}
    (hcall : ∀ s : System, s.step e = s.call f)
    (hf : ∀ {c c' : Coordinator}, Coordinator.Alike hidden w.waiting w'.waiting c c' → c.Still →
      c'.Still → Coordinator.Alike hidden w.waiting w'.waiting (f c) (f c')) :
    Twins hidden (w.change f).1 (w'.change f).1 :=
  h.reach fun ha => h.call ha he hcall hf

/-- Whoever only asks leaves the world as it was. -/
theorem Twins.ask (h : Twins hidden w w') (f f' : Coordinator → Answer) :
    Twins hidden (w.ask f).1 (w'.ask f').1 :=
  h.reach fun _ => h

theorem Twins.perform_cleanup (h : Twins hidden w w') {n : Nat}
    (hnamed : w.handles[n]? = w'.handles[n]?) :
    Twins hidden (w.perform (.cleanup n)).1 (w'.perform (.cleanup n)).1 := by
  unfold World.perform
  dsimp only
  rw [hnamed]
  cases w'.handles[n]? with
  | none => exact h
  | some handle =>
      exact h.event (e := .cleanup handle) trivial (fun _ => rfl) fun hc _ _ => hc.cleanup handle

theorem Twins.perform_handleKey (h : Twins hidden w w') (n : Nat) :
    Twins hidden (w.perform (.handleKey n)).1 (w'.perform (.handleKey n)).1 := by
  have hsame : ∀ w : World, (w.perform (.handleKey n)).1 = w := by
    intro w
    unfold World.perform
    dsimp only
    split <;> rfl
  rw [hsame, hsame]
  exact h

theorem Twins.perform_dispose (h : Twins hidden w w') :
    Twins hidden (w.perform .dispose).1 (w'.perform .dispose).1 := by
  unfold World.perform
  dsimp only
  rw [h.held_eq]
  split
  · next hheld => exact h.dispose (h.alive_of_held hheld)
  · exact h

theorem Twins.perform_newSignal (h : Twins hidden w w') :
    Twins hidden (w.perform .newSignal).1 (w'.perform .newSignal).1 :=
  h.map (fun u => { u with channels := u.channels ++ [{}] }) (fun _ => rfl) (fun _ => rfl)
    h.alive h.session

theorem Twins.perform_focusSetup (h : Twins hidden w w') (signal : Nat) :
    Twins hidden (w.perform (.focusSetup signal)).1 (w'.perform (.focusSetup signal)).1 := by
  unfold World.perform
  dsimp only
  rw [h.held_eq, h.keptChannel?]
  split
  · exact h
  · next hheld =>
      split
      · exact h
      · exact h.focusSetup (h.alive_of_held (by simpa using hheld)) _ _

theorem Twins.perform_emit (h : Twins hidden w w') (signal : Nat) :
    Twins hidden (w.perform (.emit signal)).1 (w'.perform (.emit signal)).1 := by
  unfold World.perform
  dsimp only
  rw [h.keptChannel?]
  cases w'.keptChannel? signal with
  | none => exact h
  | some channel => exact h.emit signal

theorem Twins.perform_dropSignal (h : Twins hidden w w') (signal : Nat) :
    Twins hidden (w.perform (.dropSignal signal)).1 (w'.perform (.dropSignal signal)).1 := by
  unfold World.perform
  dsimp only
  rw [h.keptChannel?]
  cases w'.keptChannel? signal with
  | none => exact h
  | some channel =>
      refine Twins.noticeClosing ?_
      exact h.map (fun u => { u with
          channels := u.channels.modify signal fun c => { c with kept := false } })
        (fun _ => rfl) (fun _ => rfl) h.alive h.session

/-- The same operation leaves twins, unless it forces the gates or means another registration. -/
theorem Twins.perform (h : Twins hidden w w') {o : Operation}
    (hplain : (Step.operation o).isPlain = true)
    (hnamed : ∀ n, o = .cleanup n → w.handles[n]? = w'.handles[n]?) :
    Twins hidden (w.perform o).1 (w'.perform o).1 := by
  cases o with
  | register o cs => exact h.register o hplain hplain fun _ => rfl
  | registerFeed o fs => exact h.register o rfl rfl fun _ => rfl
  | cleanup n => exact h.perform_cleanup (hnamed n rfl)
  | handleKey n => exact h.perform_handleKey n
  | pause key =>
      exact h.change (e := .pause key) trivial (fun _ => rfl) fun hc _ _ => hc.pause key
  | resume key jitter =>
      exact h.change (e := .resume key jitter) trivial (fun _ => rfl)
        fun hc hs hs' => hc.resume hs hs' key jitter
  | pauseHealth =>
      exact h.change (e := .pauseHealthAware) trivial (fun _ => rfl)
        fun hc _ _ => hc.pauseHealthAware
  | resumeHealth jitter =>
      exact h.change (e := .resumeHealthAware jitter) trivial (fun _ => rfl)
        fun hc hs hs' => hc.resumeHealthAware hs hs' jitter
  | pauseAuth =>
      exact h.change (e := .pauseAuthenticated) trivial (fun _ => rfl)
        fun hc _ _ => hc.pauseAuthenticated
  | resumeAuth =>
      exact h.change (e := .resumeAuthenticated) trivial (fun _ => rfl)
        fun hc hs hs' => hc.resumeAuthenticated hs hs'
  | status | statuses | polls | isDisposed => exact h.ask _ _
  | refresh =>
      exact h.reach fun ha => h.call ha (e := .refresh) trivial (fun _ => rfl)
        fun hc _ _ => hc.refresh
  | dispose => exact h.perform_dispose
  | forceGates g => exact absurd hplain (by simp [Step.isPlain])
  | newSignal => exact h.perform_newSignal
  | focusSetup signal => exact h.perform_focusSetup signal
  | emit signal => exact h.perform_emit signal
  | dropSignal signal => exact h.perform_dropSignal signal
  | setBackend v => exact h.inSession fun ha => h.setBackendAvailable ha v
  | setAuth v => exact h.inSession fun ha => h.setAuthenticated ha v
  | properties => exact h.inSession fun _ => h

end Simulation

end FeedPoller
