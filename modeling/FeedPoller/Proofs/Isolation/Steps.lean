/-
Steps of a script in twins.

A step that lets time pass was dealt with in `Twins.playUntil`.  Every other step is over at
once and does the same in twins, as long as it is the same step but for how the runs of the
veiled key go (`Twins.step`).  So does the look at the world that follows it (`Twins.look`).
Every simulation begins with a world that is a twin of itself (`Twins.new`).
-/
import FeedPoller.Proofs.Isolation.Progress

namespace FeedPoller.Simulation

variable {hidden : String} {w w' : World} {s s' : Step}

/-! ### Watched values -/

/-- The world when one of the script's watches is closed, if it has one, and followers wake. -/
def World.closing (w : World) : Option Nat → World
  | none => w
  | some i => (w.modifyWatch (.watch i) .close).wakeFollowersOf (.watch i)

theorem Twins.closing (h : Twins hidden w w') {sender sender' : Option Nat}
    (hs : sender = sender') : Twins hidden (w.closing sender) (w'.closing sender') := by
  subst hs
  cases sender with
  | none => exact h
  | some i => exact (h.modifyWatch (.watch i) .close).wakeFollowersOf (.watch i)

theorem closeSender_eq (w : World) (sender : Option Nat) :
    (w.closeSender sender).1 = w.closing sender := by
  cases sender <;> rfl

theorem system_closing (w : World) (sender : Option Nat) :
    (w.closing sender).system = w.system := by
  have hwake : ∀ (l : List (FollowerTask × Nat)) (source : Source) (w : World),
      (l.foldl (fun w entry =>
        if entry.1.running && (entry.1.health == source || entry.1.auth == source) then
          w.wakeFollower entry.2
        else w) w).system = w.system := by
    intro l source
    induction l with
    | nil => intro w; rfl
    | cons entry rest ih =>
        intro w
        rw [List.foldl_cons, ih]
        split
        · unfold World.wakeFollower
          dsimp only
          split <;> rfl
        · rfl
  cases sender with
  | none => rfl
  | some i => exact hwake _ _ _

theorem Twins.send (h : Twins hidden w w') (sender : Option Nat) (v : Bool) :
    Twins hidden (w.send sender v).1 (w'.send sender v).1 := by
  cases sender with
  | none => exact h
  | some i =>
      unfold World.send
      dsimp only
      rw [h.watchOf]
      exact (h.modifyWatch (.watch i) _).wakeFollowersOf (.watch i)

theorem Twins.lookAtMonitor (h : Twins hidden w w') (index : Nat) :
    Twins hidden (w.lookAtMonitor index).1 (w'.lookAtMonitor index).1 := by
  have hget : w.monitors[index]? = w'.monitors[index]? := by rw [h.monitors]
  unfold World.lookAtMonitor
  rw [hget]
  cases w'.monitors[index]? with
  | none => exact h
  | some t => exact h.setMonitor index _

theorem Twins.dropMonitor (h : Twins hidden w w') (index : Nat) :
    Twins hidden (w.dropMonitor index).1 (w'.dropMonitor index).1 := by
  have hget : w.monitors[index]? = w'.monitors[index]? := by rw [h.monitors]
  unfold World.dropMonitor
  rw [hget]
  cases w'.monitors[index]? with
  | none => exact h
  | some t =>
      dsimp only
      split
      · exact h
      · exact (h.setMonitor index _).modifyWatch (.monitor index) .leave

/-! ### Following -/

theorem Twins.addWatch (h : Twins hidden w w') (watch : Watch) :
    Twins hidden { w with watches := w.watches ++ [watch] }
      { w' with watches := w'.watches ++ [watch] } :=
  h.map (fun u => { u with watches := u.watches ++ [watch] }) (fun _ => rfl) (fun _ => rfl) h.alive
    h.session

/-- The world when a follower has taken the place of the one before. -/
def World.following (w : World) (health : Source) (healthSender : Option Nat)
    (auth : Bool) : World :=
  let published : World := { w with watches := w.watches ++ [.new auth] }
  let closed := (published.closing w.healthSender).closing w.authSender
  let task : FollowerTask := { health, auth := .watch w.watches.length }
  let joined : World := { closed with
    followers := closed.followers ++ [task]
    healthSender
    authSender := some w.watches.length }
  joined.wakeFollower closed.followers.length

/-- To follow is to follow a new value, or a monitor if the script watches it. -/
theorem follow_eq (w : World) (health : Option Bool) (monitor : Nat) (auth : Bool) :
    (w.follow health monitor auth).1 =
      match health, w.monitors[monitor]?.bind (·.seen) with
      | some v, _ =>
        World.following { w with watches := w.watches ++ [.new v] } (.watch w.watches.length)
          (some w.watches.length) auth
      | none, some _ =>
        (w.modifyWatch (.monitor monitor) .join).following (.monitor monitor) none auth
      | none, none => w := by
  cases health with
  | some v => rfl
  | none =>
      unfold World.follow
      cases w.monitors[monitor]?.bind (·.seen) <;> rfl

theorem Twins.addFollower (h : Twins hidden w w') (ha : w.system.alive = true) (task : FollowerTask)
    (healthSender authSender : Option Nat) :
    Twins hidden
      ({ w with followers := w.followers ++ [task], healthSender, authSender }.wakeFollower
        w.followers.length)
      ({ w' with followers := w'.followers ++ [task], healthSender, authSender }.wakeFollower
        w'.followers.length) := by
  have hlen : w'.followers.length = w.followers.length := by rw [h.followers]
  rw [hlen]
  refine Twins.wakeFollower ?_ _
  exact h.map (fun u => { u with followers := u.followers ++ [task], healthSender, authSender })
    (fun _ => rfl) (fun _ => rfl) (fun _ => ha) h.session

theorem Twins.following (h : Twins hidden w w') (ha : w.system.alive = true) (health : Source)
    (healthSender : Option Nat) (auth : Bool) :
    Twins hidden (w.following health healthSender auth)
      (w'.following health healthSender auth) := by
  have hlen : w.watches.length = w'.watches.length := by rw [h.watches]
  have hclosed := ((h.addWatch (.new auth)).closing h.healthSender).closing h.authSender
  have hsame : ((World.closing { w with watches := w.watches ++ [.new auth] }
      w.healthSender).closing w.authSender).system = w.system := by
    rw [system_closing, system_closing]
  unfold World.following
  dsimp only
  rw [hlen]
  exact hclosed.addFollower (hsame.symm ▸ ha) _ _ _

theorem Twins.follow (h : Twins hidden w w') (hs : w'.session = true) (health : Option Bool)
    (monitor : Nat) (auth : Bool) :
    Twins hidden (w.follow health monitor auth).1 (w'.follow health monitor auth).1 := by
  have ha : w.system.alive = true := h.alive_of_held (h.symm.session hs)
  have hlen : w.watches.length = w'.watches.length := by rw [h.watches]
  have hget : w.monitors[monitor]? = w'.monitors[monitor]? := by rw [h.monitors]
  rw [follow_eq, follow_eq, hget, hlen]
  split
  · exact (h.addWatch _).following ha _ _ _
  · exact (h.modifyWatch (.monitor monitor) .join).following ha _ _ _
  · exact h

/-! ### Every step that is over at once -/

/-- How long a step lets time pass, if it does. -/
def Step.duration? : Step → Option Duration
  | .settle => some .zero
  | .advance d => some d
  | _ => none

theorem Twins.step (h : Twins hidden w w') (hs : s.SameBut hidden s') (hd : s.duration? = none)
    (hnamed : ∀ n, s = .operation (.cleanup n) → w.handles[n]? = w'.handles[n]?) :
    Twins hidden (w.step s).1 (w'.step s').1 := by
  cases hs with
  | calls hkey hquiet hquiet' =>
      exact h.register _ hquiet hquiet' fun hne => absurd hkey hne
  | fetches hkey => exact h.register _ rfl rfl fun hne => absurd hkey hne
  | same hplain =>
      unfold World.step
      cases s with
      | operation o => exact h.perform hplain fun n hn => hnamed n (congrArg Step.operation hn)
      | settle | advance => exact absurd hd (by simp [Step.duration?])
      | feed | feeds | followFinished | unknown => exact h
      | feedBegin | feedComplete | feedFail | feedRemove => exact h.withStore _ _
      | report =>
          dsimp only
          rw [h.session_eq]
          split <;> exact h
      | foregroundRegained =>
          dsimp only
          rw [h.session_eq]
          split
          · exact h.emit 0
          · exact h
      | follow health monitor auth =>
          dsimp only
          rw [h.session_eq]
          split
          · next hs => exact h.follow hs health monitor auth
          · exact h
      | sendHealth v =>
          dsimp only
          rw [h.healthSender]
          exact h.send _ v
      | sendAuth v =>
          dsimp only
          rw [h.authSender]
          exact h.send _ v
      | dropHealth =>
          have hclose := h.closing h.healthSender
          rw [← closeSender_eq, ← closeSender_eq] at hclose
          exact hclose.map (fun u => { u with healthSender := none }) (fun _ => rfl) (fun _ => rfl)
            hclose.alive hclose.session
      | dropAuth =>
          have hclose := h.closing h.authSender
          rw [← closeSender_eq, ← closeSender_eq] at hclose
          exact hclose.map (fun u => { u with authSender := none }) (fun _ => rfl) (fun _ => rfl)
            hclose.alive hclose.session
      | monitor interval script =>
          have hadd := h.map (fun u => { u with
              monitors := u.monitors ++ [{ monitor := .start interval w'.now, script }] })
            (fun _ => rfl) (fun _ => rfl) h.alive h.session
          have hlen : w.monitors.length = w'.monitors.length := by rw [h.monitors]
          dsimp only
          rw [hlen, h.now]
          refine hadd.wait _ ?_ ?_ <;> trivial
      | monitorState index => exact h.lookAtMonitor index
      | monitorDrop index => exact h.dropMonitor index
      | drop =>
          refine Twins.noticeRelease ?_
          exact h.map (fun u => { u with held := false, session := false }) (fun _ => rfl)
            (fun _ => rfl) (fun hheld => h.alive (Bool.or_eq_true_iff.mpr (Or.inr hheld)))
            (fun hs => absurd hs Bool.false_ne_true)

/-! ### Looking, and the beginning -/

theorem Twins.look (h : Twins hidden w w') (answer answer' : Answer) :
    Twins hidden (w.look answer).1 (w'.look answer').1 := by
  have hdraws : w.system.coordinator.draws = w'.system.coordinator.draws :=
    h.stage.coordinators.draws
  have hstage := h.stage.withDraws { w'.system.coordinator.draws with made := [] }
  unfold World.look
  dsimp only
  rw [hdraws]
  exact h.staged { hstage with notes := rfl } rfl rfl rfl

/-- A world at the beginning is a twin of itself. -/
theorem Twins.initial (hidden : String) (config : CoordinatorConfig) (draws : List Nat) :
    Twins hidden (World.initial config draws) (World.initial config draws) := by
  have hsound := System.sound_initial config ⟨⟨0⟩, World.beginning⟩ ⟨draws, []⟩
  have hsane : Sane (World.initial config draws).system [] [] :=
    ⟨hsound, rfl, fun _ hr => absurd hr List.not_mem_nil, fun _ hr => absurd hr List.not_mem_nil,
      by simp, by simp⟩
  exact ⟨⟨hsane, hsane, .refl hsound.tidy (laid_nil 0), rfl, rfl, rfl, rfl⟩, rfl, fun _ => rfl,
    fun hs => absurd hs Bool.false_ne_true⟩

theorem Twins.new (hidden : String) (mode : Mode) (config : CoordinatorConfig) (draws : List Nat) :
    Twins hidden (World.new mode config draws) (World.new mode config draws) := by
  have h := Twins.initial hidden config draws
  cases mode with
  | coordinator => exact h
  | session =>
      have hsession := h.map
        (fun u => { u with session := true, channels := [{ ofSession := true }] })
        (fun _ => rfl) (fun _ => rfl) h.alive fun _ => rfl
      exact hsession.focusSetup rfl 0 _

end FeedPoller.Simulation
