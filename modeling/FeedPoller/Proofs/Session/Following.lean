/-
Followed signals converge.

A follower may be slow: values are sent while it is busy elsewhere, several of them before
it looks again, and a sender may be gone by then.  What it must not do is stop at a value that
is not the last one.  The invariant that excludes this is about one side at a time: a follower
that has seen the latest version has brought the gate to the latest value, and it believes
the sender to be gone only when it has seen the latest version and the sender is gone.  Sending
keeps the first half true by making the latest version one that has not been seen.

How much there is left to hear on a side is a number, at most two, and every word takes one
away.  So a follower that is not disturbed comes to rest, and at rest the gates are what was
sent last.
-/
import FeedPoller.Proofs.Poll.Gates
import FeedPoller.Session.Signals

namespace FeedPoller

/-! ### The gates -/

namespace Coordinator

variable {c : Coordinator}

/-- To tell the coordinator about the backend sets that gate and leaves the other one. -/
theorem setBackendAvailable_gates (c : Coordinator) (v : Bool) :
    (c.setBackendAvailable v).1.gates = { c.gates with backendAvailable := v } := by
  unfold setBackendAvailable
  split
  · next h => rw [← eq_of_beq h]
  · cases v with
    | false => exact suspendWhere_gates _
    | true => exact resumeWhere_gates _ _

/-- To tell the coordinator about the user sets that gate and leaves the other one. -/
theorem setAuthenticated_gates (c : Coordinator) (v : Bool) :
    (c.setAuthenticated v).1.gates = { c.gates with authGranted := v } := by
  unfold setAuthenticated
  split
  · next h => rw [← eq_of_beq h]
  · cases v with
    | false => exact suspendWhere_gates _
    | true => exact resumeWhere_gates _ _

/-- To tell the coordinator a value of a signal. -/
def setGate (c : Coordinator) : Signal → Bool → Coordinator
  | .health, v => (c.setBackendAvailable v).1
  | .auth, v => (c.setAuthenticated v).1

theorem setGate_gates (c : Coordinator) (signal : Signal) (v : Bool) :
    (c.setGate signal v).gates.of signal = v := by
  cases signal with
  | health => exact congrArg Gates.backendAvailable (setBackendAvailable_gates c v)
  | auth => exact congrArg Gates.authGranted (setAuthenticated_gates c v)

theorem setGate_of_ne {signal other : Signal} (h : other ≠ signal) (c : Coordinator) (v : Bool) :
    (c.setGate signal v).gates.of other = c.gates.of other := by
  cases signal with
  | health =>
      cases other with
      | health => exact absurd rfl h
      | auth => exact (congrArg Gates.authGranted (setBackendAvailable_gates c v)).trans rfl
  | auth =>
      cases other with
      | health => exact (congrArg Gates.backendAvailable (setAuthenticated_gates c v)).trans rfl
      | auth => exact absurd rfl h

theorem setGate_same {signal : Signal} {v : Bool} (h : v = c.gates.of signal) :
    c.setGate signal v = c := by
  cases signal with
  | health => simp [setGate, setBackendAvailable, h, Gates.of]
  | auth => simp [setGate, setAuthenticated, h, Gates.of]

end Coordinator

/-! ### One side -/

theorem Watch.send_eq {w : Watch} (hw : 0 < w.watchers) (v : Bool) :
    (w.send v).1 = { w with value := v, version := w.version + 1 } := by
  rw [send, if_neg (by simpa using Nat.ne_of_gt hw)]

namespace Side

variable {side side' : Side} {w : Watch} {gate v : Bool} {word : Word}

/-- What a follower has made of one signal. -/
structure Follows (side : Side) (w : Watch) (gate : Bool) : Prop where
  behind : side.seen ≤ w.version
  caught : side.seen = w.version → gate = w.value
  /-- The end is believed only when everything has been seen and the sender is gone. -/
  ended : side.live = false → side.seen = w.version ∧ w.published = false

theorem follows_first (w : Watch) : Follows ⟨w.version, true⟩ w w.value :=
  ⟨Nat.le_refl _, fun _ => rfl, fun h => absurd h (by simp)⟩

/-- A value that is sent has not been seen, and nobody believes its sender to be gone. -/
theorem Follows.send (h : side.Follows w gate) (hp : w.published = true) (hw : 0 < w.watchers) :
    side.Follows (w.send v).1 gate := by
  rw [Watch.send_eq hw]
  refine ⟨Nat.le_succ_of_le h.behind, fun hseen => ?_, fun hlive => ?_⟩
  · have := h.behind
    simp only at hseen
    omega
  · exact absurd (hp.symm.trans (h.ended hlive).2) (by simp)

theorem Follows.close (h : side.Follows w gate) : side.Follows w.close gate :=
  ⟨h.behind, h.caught, fun hlive => ⟨(h.ended hlive).1, rfl⟩⟩

theorem hasNews_iff {n : Nat} : w.hasNews n = true ↔ n ≠ w.version := by
  rw [Watch.hasNews, bne_iff_ne, ne_comm]

/-- What is heard is the latest value, or the end after the latest value. -/
theorem hear?_cases (h : side.hear? w = some (word, side')) :
    (word = .value w.value ∧ side' = { side with seen := w.version } ∧ side.live = true ∧
      side.seen ≠ w.version) ∨
    (word = .ended ∧ side' = { side with live := false } ∧ side.live = true ∧
      side.seen = w.version ∧ w.published = false) := by
  unfold hear? at h
  split at h
  · exact absurd h (by simp)
  · next hlive =>
      have hlive' : side.live = true := by simpa using hlive
      split at h
      · next hnews =>
          obtain ⟨rfl, rfl⟩ := Prod.mk.inj (Option.some.inj h)
          exact Or.inl ⟨rfl, rfl, hlive', hasNews_iff.mp hnews⟩
      · next hnews =>
          split at h
          · next hpub =>
              obtain ⟨rfl, rfl⟩ := Prod.mk.inj (Option.some.inj h)
              refine Or.inr ⟨rfl, rfl, hlive', ?_, by simpa using hpub⟩
              exact not_not.mp fun hne => hnews (hasNews_iff.mpr hne)
          · exact absurd h (by simp)

/-- The gate that a word leaves behind. -/
def Word.leaves (word : Word) (before : Bool) : Bool :=
  match word with
  | .value v => v
  | .ended => before

/-- To pass a word on to the coordinator; of the end it is not told. -/
def Word.tell (word : Word) (signal : Signal) (c : Coordinator) : Coordinator :=
  match word with
  | .value v => c.setGate signal v
  | .ended => c

theorem Word.tell_gates (word : Word) (signal : Signal) (c : Coordinator) :
    (word.tell signal c).gates.of signal = word.leaves (c.gates.of signal) := by
  cases word with
  | value v => exact c.setGate_gates signal v
  | ended => rfl

theorem Word.tell_of_ne {signal other : Signal} (h : other ≠ signal) (word : Word)
    (c : Coordinator) :
    (word.tell signal c).gates.of other = c.gates.of other := by
  cases word with
  | value v => exact Coordinator.setGate_of_ne h c v
  | ended => rfl

theorem Follows.hear (h : side.Follows w gate) (hh : side.hear? w = some (word, side')) :
    side'.Follows w (word.leaves gate) := by
  obtain ⟨rfl, rfl, hlive, -⟩ | ⟨rfl, rfl, -, hseen, hpub⟩ := hear?_cases hh
  · exact ⟨Nat.le_refl _, fun _ => rfl, fun hl => absurd (hlive.symm.trans hl) (by simp)⟩
  · exact ⟨h.behind, h.caught, fun _ => ⟨hseen, hpub⟩⟩

/-- With nothing to hear the gate is at the latest value, and the end is known. -/
theorem Follows.rest (h : side.Follows w gate) (hnone : side.hear? w = none) :
    gate = w.value ∧ (side.live = false ↔ w.published = false) := by
  unfold hear? at hnone
  split at hnone
  · next hlive =>
      have hlive' : side.live = false := by simpa using hlive
      obtain ⟨hseen, hpub⟩ := h.ended hlive'
      exact ⟨h.caught hseen, by simp [hlive', hpub]⟩
  · next hlive =>
      split at hnone
      · exact absurd hnone (by simp)
      · next hnews =>
          split at hnone
          · exact absurd hnone (by simp)
          · next hpub =>
              have hseen : side.seen = w.version :=
                not_not.mp fun hne => hnews (hasNews_iff.mpr hne)
              simp only [Bool.not_eq_true', Bool.not_eq_false] at hlive hpub
              exact ⟨h.caught hseen, by simp [hlive, hpub]⟩

/-- How many words there are to hear: the latest value, and the end. -/
def words (side : Side) (w : Watch) : Nat :=
  if side.live then (w.hasNews side.seen).toNat + (!w.published).toNat else 0

theorem words_le (side : Side) (w : Watch) : side.words w ≤ 2 := by
  unfold words
  split
  · cases w.hasNews side.seen <;> cases w.published <;> decide
  · exact Nat.zero_le 2

theorem hear?_eq_none : side.hear? w = none ↔ side.words w = 0 := by
  unfold hear? words
  cases side.live <;> cases w.hasNews side.seen <;> cases w.published <;> simp

/-- Every word that is heard is one less to hear. -/
theorem words_hear (h : side.hear? w = some (word, side')) :
    side.words w = side'.words w + 1 := by
  obtain ⟨-, rfl, hlive, hseen⟩ | ⟨-, rfl, hlive, hseen, hpub⟩ := hear?_cases h
  · have hold : w.hasNews w.version = false := by simp [Watch.hasNews]
    simp [words, hlive, hasNews_iff.mpr hseen, hold, Nat.add_comm]
  · simp [words, hlive, Watch.hasNews, hseen, hpub]

end Side

/-! ### The history of a signal -/

/-- The values sent on a signal before its sender is gone. -/
def Signal.sent (signal : Signal) : List SignalEvent → List Bool
  | [] => []
  | .send other v :: rest => if other = signal then v :: signal.sent rest else signal.sent rest
  | .drop other :: rest => if other = signal then [] else signal.sent rest
  | _ :: rest => signal.sent rest

/-- What an event makes of the state of a signal. -/
def Watch.after (w : Watch) (signal : Signal) : SignalEvent → Watch
  | .send other v => if other = signal ∧ w.published = true then (w.send v).1 else w
  | .drop other => if other = signal then w.close else w
  | _ => w

namespace Watch

variable {w : Watch}

theorem after_watchers (w : Watch) (signal : Signal) (e : SignalEvent) :
    (w.after signal e).watchers = w.watchers := by
  cases e with
  | send other v =>
      unfold after send
      dsimp only
      split
      · split <;> rfl
      · rfl
  | drop other =>
      unfold after
      dsimp only
      split <;> rfl
  | poll | greet | hear => rfl

/-- Once the sender is gone nothing changes any more. -/
theorem foldl_closed (signal : Signal) (hp : w.published = false) (events : List SignalEvent) :
    (events.foldl (after · signal) w).value = w.value ∧
      (events.foldl (after · signal) w).published = false := by
  induction events generalizing w with
  | nil => exact ⟨rfl, hp⟩
  | cons e rest ih =>
      have hsame : (w.after signal e).value = w.value ∧ (w.after signal e).published = false := by
        cases e with
        | drop other =>
            unfold after
            dsimp only
            split <;> simp [close, hp]
        | _ => simp [after, hp]
      obtain ⟨hv, hp'⟩ := ih hsame.2
      exact ⟨hv.trans hsame.1, hp'⟩

/-- What a signal comes to is the value sent last, and the end if its sender is gone. -/
theorem foldl_after (signal : Signal) (hw : 0 < w.watchers) (hp : w.published = true)
    (events : List SignalEvent) :
    (events.foldl (after · signal) w).value = (signal.sent events).getLastD w.value ∧
      ((events.foldl (after · signal) w).published = false ↔ .drop signal ∈ events) := by
  induction events generalizing w with
  | nil => exact ⟨rfl, by simp [hp]⟩
  | cons e rest ih =>
      rw [List.foldl_cons]
      cases e with
      | send other v =>
          by_cases ho : other = signal
          · subst ho
            have hafter : w.after other (.send other v) =
                { w with value := v, version := w.version + 1 } := by
              rw [after, if_pos ⟨rfl, hp⟩, send_eq hw]
            rw [hafter]
            obtain ⟨hv, hd⟩ := ih (w := { w with value := v, version := w.version + 1 }) hw hp
            refine ⟨?_, hd.trans (by simp)⟩
            rw [hv, Signal.sent, if_pos rfl, List.getLastD_cons]
          · rw [after, if_neg fun h => ho h.1, Signal.sent, if_neg ho]
            obtain ⟨hv, hd⟩ := ih hw hp
            exact ⟨hv, hd.trans (by simp)⟩
      | drop other =>
          by_cases ho : other = signal
          · subst ho
            rw [after, if_pos rfl, Signal.sent, if_pos rfl]
            obtain ⟨hv, hd⟩ := foldl_closed (w := w.close) other rfl rest
            exact ⟨hv, by simp [hd]⟩
          · rw [after, if_neg ho, Signal.sent, if_neg ho]
            obtain ⟨hv, hd⟩ := ih hw hp
            have hne : SignalEvent.drop signal ≠ .drop other := by simpa [eq_comm] using ho
            exact ⟨hv, hd.trans (by simp [hne])⟩
      | poll | greet | hear =>
          obtain ⟨hv, hd⟩ := ih hw hp
          exact ⟨hv, hd.trans (by simp)⟩

end Watch

/-- What happens to a signal leaves its follower behind, but not astray. -/
theorem Side.Follows.after {side : Side} {w : Watch} {gate : Bool} (h : side.Follows w gate)
    (hw : 0 < w.watchers) (signal : Signal) (e : SignalEvent) :
    side.Follows (w.after signal e) gate := by
  cases e with
  | send other v =>
      by_cases hs : other = signal ∧ w.published = true
      · rw [Watch.after, if_pos hs]
        exact h.send hs.2 hw
      · rw [Watch.after, if_neg hs]
        exact h
  | drop other =>
      by_cases ho : other = signal
      · rw [Watch.after, if_pos ho]
        exact h.close
      · rw [Watch.after, if_neg ho]
        exact h
  | poll | greet | hear => exact h

/-- An event that leaves the gates to the follower. -/
def SignalEvent.Aside : SignalEvent → Prop
  | .poll e => e.Aside
  | _ => True

instance : ∀ e : SignalEvent, Decidable e.Aside
  | .poll e => inferInstanceAs (Decidable e.Aside)
  | .send _ _ | .drop _ | .greet _ | .hear _ => isTrue trivial

namespace SignalSystem

variable {s : SignalSystem} {e : SignalEvent} {signal other : Signal}

/-! ### One step -/

def gates (s : SignalSystem) : Gates := s.system.coordinator.gates

/-- What the follower knows of a signal. -/
def side (s : SignalSystem) : Signal → Side
  | .health => s.follower.health
  | .auth => s.follower.auth

/-- Whether the first value of a signal has been passed on. -/
def greeted (s : SignalSystem) : Signal → Bool
  | .health => s.begun
  | .auth => s.follower.started

theorem watch_step (s : SignalSystem) (e : SignalEvent) (signal : Signal) :
    (s.step e).watch signal = (s.watch signal).after signal e := by
  cases e with
  | poll e => cases signal <;> rfl
  | send other v =>
      unfold step Watch.after
      dsimp only
      by_cases ho : other = signal
      · subst ho
        by_cases hp : (s.watch other).published = true
        · rw [if_pos hp, if_pos ⟨rfl, hp⟩]
          cases other <;> rfl
        · rw [if_neg hp, if_neg fun h => hp h.2]
      · rw [if_neg fun h : other = signal ∧ _ => ho h.1]
        split
        · cases signal <;> cases other <;> first | rfl | exact absurd rfl ho
        · rfl
  | drop other => cases signal <;> cases other <;> rfl
  | greet other =>
      cases signal <;> cases other <;> unfold step greet <;> dsimp only <;> split <;> rfl
  | hear other =>
      cases signal <;> unfold step hear <;> dsimp only <;> split <;> rfl

theorem watch_run (s : SignalSystem) (events : List SignalEvent) (signal : Signal) :
    (s.run events).watch signal = events.foldl (Watch.after · signal) (s.watch signal) := by
  induction events generalizing s with
  | nil => rfl
  | cons e rest ih => rw [List.foldl_cons, ← watch_step, ← ih]; rfl

/-- To pass on the first value of a signal is to bring its gate to it. -/
theorem greet_cases (s : SignalSystem) (signal : Signal) :
    s.greet signal = s ∨
    (s.greeted signal = false ∧ (s.greet signal).greeted signal = true ∧
      (s.greet signal).side signal = ⟨(s.watch signal).version, true⟩ ∧
      (s.greet signal).system =
        { s.system with
          coordinator := s.system.coordinator.setGate signal (s.watch signal).value }) := by
  cases signal with
  | health =>
      by_cases hb : s.begun = true
      · exact Or.inl (by rw [greet, if_pos hb])
      · refine Or.inr ⟨by simpa [greeted] using hb, ?_⟩
        rw [greet, if_neg hb]
        exact ⟨rfl, rfl, rfl⟩
  | auth =>
      by_cases hb : (!s.begun || s.follower.started) = true
      · exact Or.inl (by rw [greet, if_pos hb])
      · have hstart : s.follower.started = false := by
          simp only [Bool.or_eq_true, not_or] at hb
          simpa using hb.2
        refine Or.inr ⟨hstart, ?_⟩
        rw [greet, if_neg hb]
        exact ⟨rfl, rfl, rfl⟩

/-- What the follower knows when it has heard a word on a signal. -/
def knowing (f : Follower) : Signal → Side → Follower
  | .health, side => { f with health := side }
  | .auth, side => { f with auth := side }

/-- To hear a word is to remember it and to pass it on. -/
theorem hear_eq (hstart : s.follower.started = true) (signal : Signal) : s.hear signal =
    match (s.side signal).hear? (s.watch signal) with
    | none => s
    | some (word, side) =>
        s.followed (knowing s.follower signal side) (word.tell signal s.system.coordinator) := by
  unfold hear
  rw [if_neg (by simp [hstart])]
  cases signal with
  | health =>
      show s.followed (s.follower.hearHealth _ _).1 (s.follower.hearHealth _ _).2 =
        match s.follower.health.hear? s.health with | none => _ | some (_, _) => _
      unfold Follower.hearHealth
      cases s.follower.health.hear? s.health with
      | none => rfl
      | some heard =>
          obtain ⟨word, side⟩ := heard
          cases word <;> rfl
  | auth =>
      show s.followed (s.follower.hearAuth _ _).1 (s.follower.hearAuth _ _).2 =
        match s.follower.auth.hear? s.auth with | none => _ | some (_, _) => _
      unfold Follower.hearAuth
      cases s.follower.auth.hear? s.auth with
      | none => rfl
      | some heard =>
          obtain ⟨word, side⟩ := heard
          cases word <;> rfl

/-- There is a word to hear on a signal, or nothing happens. -/
theorem hear_cases (s : SignalSystem) (signal : Signal) :
    (s.hear signal = s ∧
      (s.follower.started = false ∨ (s.side signal).hear? (s.watch signal) = none)) ∨
    ∃ word side', s.follower.started = true ∧
      (s.side signal).hear? (s.watch signal) = some (word, side') ∧
      s.hear signal =
        s.followed (knowing s.follower signal side') (word.tell signal s.system.coordinator) := by
  by_cases hstart : s.follower.started = true
  · have heq := hear_eq hstart signal
    cases hh : (s.side signal).hear? (s.watch signal) with
    | none => exact Or.inl ⟨by rw [heq, hh], Or.inr rfl⟩
    | some heard => exact Or.inr ⟨heard.1, heard.2, hstart, rfl, by rw [heq, hh]⟩
  · refine Or.inl ⟨?_, Or.inl (by simpa using hstart)⟩
    unfold hear
    exact if_pos (by simpa using hstart)

section Followed

variable (side' : Side) (c : Coordinator)

theorem followed_side (s : SignalSystem) (signal : Signal) :
    (s.followed (knowing s.follower signal side') c).side signal = side' := by
  cases signal <;> rfl

theorem followed_side_of_ne (h : other ≠ signal) :
    (s.followed (knowing s.follower signal side') c).side other = s.side other := by
  cases signal <;> cases other <;> first | rfl | exact absurd rfl h

theorem followed_greeted :
    (s.followed (knowing s.follower signal side') c).greeted other = s.greeted other := by
  cases signal <;> cases other <;> rfl

end Followed

theorem hear_greeted (s : SignalSystem) (signal other : Signal) :
    (s.hear signal).greeted other = s.greeted other := by
  obtain ⟨e, -⟩ | ⟨word, side', -, -, e⟩ := hear_cases s signal <;> rw [e]
  exact followed_greeted _ _

/-- The follower acts on one signal at a time. -/
theorem unmoved (he : e.Aside) (hgreet : e ≠ .greet signal) (hhear : e ≠ .hear signal) :
    (s.step e).side signal = s.side signal ∧ (s.step e).greeted signal = s.greeted signal ∧
      (s.step e).gates.of signal = s.gates.of signal := by
  cases e with
  | poll e =>
      have hgates : (s.step (.poll e)).gates = s.gates := System.step_gates he
      rw [hgates]
      cases signal <;> exact ⟨rfl, rfl, rfl⟩
  | send other v =>
      unfold step
      dsimp only
      split
      · cases signal <;> cases other <;> exact ⟨rfl, rfl, rfl⟩
      · exact ⟨rfl, rfl, rfl⟩
  | drop other => cases signal <;> cases other <;> exact ⟨rfl, rfl, rfl⟩
  | greet other =>
      have hne : signal ≠ other := fun h => hgreet (h ▸ rfl)
      show (s.greet other).side signal = _ ∧ (s.greet other).greeted signal = _ ∧
        (s.greet other).gates.of signal = _
      obtain e | ⟨-, -, -, hsystem⟩ := greet_cases s other
      · rw [e]
        exact ⟨rfl, rfl, rfl⟩
      · refine ⟨?_, ?_, ?_⟩
        · cases signal <;> cases other <;> unfold greet <;> dsimp only <;> split <;>
            first | rfl | exact absurd rfl hne
        · cases signal <;> cases other <;> unfold greet <;> dsimp only <;> split <;>
            first | rfl | exact absurd rfl hne
        · rw [gates, hsystem]
          exact Coordinator.setGate_of_ne hne _ _
  | hear other =>
      have hne : signal ≠ other := fun h => hhear (h ▸ rfl)
      show (s.hear other).side signal = _ ∧ (s.hear other).greeted signal = _ ∧
        (s.hear other).gates.of signal = _
      obtain ⟨e, -⟩ | ⟨word, side', -, -, e⟩ := hear_cases s other <;> rw [e]
      · exact ⟨rfl, rfl, rfl⟩
      · exact ⟨followed_side_of_ne _ _ hne, followed_greeted _ _, Side.Word.tell_of_ne hne word _⟩

/-! ### Every history -/

/-- A follower is behind on its signals, but not astray. -/
structure Following (s : SignalSystem) : Prop where
  order : s.follower.started = true → s.begun = true
  watched : ∀ signal, 0 < (s.watch signal).watchers
  follows : ∀ signal, s.greeted signal = true →
    (s.side signal).Follows (s.watch signal) (s.gates.of signal)

theorem following_initial (system : System) (health auth : Bool) :
    (initial system health auth).Following where
  order := fun h => absurd h (by simp [initial])
  watched := fun signal => by cases signal <;> exact Nat.one_pos
  follows := fun signal h => by cases signal <;> exact absurd h (by simp [greeted, initial])

theorem Following.greeted (h : s.Following) (hstart : s.follower.started = true)
    (signal : Signal) : s.greeted signal = true := by
  cases signal with
  | health => exact h.order hstart
  | auth => exact hstart

theorem Following.order_step (h : s.Following) (he : e.Aside) :
    (s.step e).greeted .auth = true → (s.step e).greeted .health = true := by
  intro hstart
  by_cases hhealth : e = .greet .health
  · rw [hhealth] at hstart ⊢
    show (s.greet .health).greeted .health = true
    by_cases hb : s.begun = true
    · rw [greet, if_pos hb]
      exact hb
    · rw [greet, if_neg hb]
      rfl
  · by_cases hauth : e = .greet .auth
    · rw [hauth] at hstart ⊢
      have hstart' : (s.greet .auth).greeted .auth = true := hstart
      show (s.greet .auth).greeted .health = true
      by_cases hb : (!s.begun || s.follower.started) = true
      · rw [greet, if_pos hb] at hstart' ⊢
        exact h.order hstart'
      · have hbegun : s.begun = true := by
          simp only [Bool.or_eq_true, not_or] at hb
          simpa using hb.1
        rw [greet, if_neg hb]
        exact hbegun
    · by_cases hhear : ∃ other, e = .hear other
      · obtain ⟨other, rfl⟩ := hhear
        have hsame := hear_greeted s other
        exact (hsame .health).trans (h.order ((hsame .auth).symm.trans hstart))
      · have hne : ∀ other, e ≠ .hear other := fun other heq => hhear ⟨other, heq⟩
        rw [(unmoved he hauth (hne _)).2.1] at hstart
        rw [(unmoved he hhealth (hne _)).2.1]
        exact h.order hstart

/-- Nothing that happens leads the follower astray. -/
theorem Following.step (h : s.Following) (he : e.Aside) : (s.step e).Following where
  order := h.order_step he
  watched := by
    intro signal
    rw [watch_step, Watch.after_watchers]
    exact h.watched signal
  follows := by
    intro signal hgreeted
    rw [watch_step]
    by_cases hgreet : e = .greet signal
    · subst hgreet
      have hwatch : (s.watch signal).after signal (.greet signal) = s.watch signal := rfl
      rw [hwatch]
      show ((s.greet signal).side signal).Follows (s.watch signal)
        ((s.greet signal).gates.of signal)
      obtain e | ⟨-, -, hside, hsystem⟩ := greet_cases s signal
      · have hold : (s.greet signal).greeted signal = true := hgreeted
        rw [e] at hold ⊢
        exact h.follows signal hold
      · rw [hside, gates, hsystem, Coordinator.setGate_gates]
        exact Side.follows_first _
    · by_cases hhear : e = .hear signal
      · subst hhear
        have hwatch : (s.watch signal).after signal (.hear signal) = s.watch signal := rfl
        rw [hwatch]
        show ((s.hear signal).side signal).Follows (s.watch signal)
          ((s.hear signal).gates.of signal)
        obtain ⟨e, -⟩ | ⟨word, side', hstart, hh, e⟩ := hear_cases s signal
        · have hold : (s.hear signal).greeted signal = true := hgreeted
          rw [e] at hold ⊢
          exact h.follows signal hold
        · have hgate : (s.hear signal).gates.of signal = word.leaves (s.gates.of signal) := by
            rw [e]
            exact word.tell_gates signal _
          rw [hgate, e, followed_side]
          exact (h.follows signal (h.greeted hstart signal)).hear hh
      · obtain ⟨hside, hsame, hgate⟩ := unmoved he hgreet hhear
        rw [hside, hgate]
        exact (h.follows signal (hsame.symm.trans hgreeted)).after (h.watched signal) signal e

theorem Following.run (h : s.Following) {events : List SignalEvent}
    (haside : ∀ e ∈ events, e.Aside) : (s.run events).Following := by
  induction events generalizing s with
  | nil => exact h
  | cons e rest ih =>
      exact ih (h.step (haside e (by simp))) fun e he => haside e (by simp [he])

/-! ### At rest -/

/-- How much the follower has still to hear on a signal. -/
def words (s : SignalSystem) (signal : Signal) : Nat := (s.side signal).words (s.watch signal)

/-- A follower that has nothing left to do has begun, and has nothing left to hear. -/
theorem settled_iff :
    s.Settled ↔ s.begun = true ∧ s.follower.started = true ∧ ∀ signal, s.words signal = 0 := by
  constructor
  · intro h
    have hgreeted (signal : Signal) (hprior : signal = .auth → s.begun = true) :
        s.greeted signal = true := by
      have hsame := (h signal).1
      cases signal with
      | health =>
          by_contra hno
          have hb : ¬ s.begun = true := hno
          rw [greet, if_neg hb] at hsame
          exact hb (congrArg begun hsame).symm
      | auth =>
          by_contra hstart
          have hb : ¬ (!s.begun || s.follower.started) = true := by
            simpa [hprior rfl, greeted] using hstart
          rw [greet, if_neg hb] at hsame
          exact hstart (congrArg (·.follower.started) hsame).symm
    have hbegun : s.begun = true := hgreeted .health (by simp)
    have hstart : s.follower.started = true := hgreeted .auth fun _ => hbegun
    refine ⟨hbegun, hstart, fun signal => Side.hear?_eq_none.mp ?_⟩
    obtain ⟨-, hno | hnone⟩ | ⟨word, side', -, hh, e⟩ := hear_cases s signal
    · exact absurd (hno.symm.trans hstart) (by simp)
    · exact hnone
    · have hside : s.side signal = side' := by
        have hheard := followed_side side' (word.tell signal s.system.coordinator) s signal
        rwa [← e, (h signal).2] at hheard
      have hless := Side.words_hear hh
      rw [hside] at hless
      omega
  · rintro ⟨hbegun, hstart, hwords⟩ signal
    refine ⟨?_, ?_⟩
    · cases signal with
      | health => rw [greet, if_pos hbegun]
      | auth => rw [greet, if_pos (by simp [hstart])]
    · obtain ⟨e, -⟩ | ⟨word, side', -, hh, -⟩ := hear_cases s signal
      · exact e
      · exact absurd hh (by simp [Side.hear?_eq_none.mpr (hwords signal)])

/-- Every word that is heard is one less to hear, and the other signal can wait. -/
theorem words_hear (hstart : s.follower.started = true) (signal other : Signal) :
    (s.hear signal).words other = s.words other - if other = signal then 1 else 0 := by
  by_cases ho : other = signal
  · subst ho
    rw [if_pos rfl]
    obtain ⟨e, hno | hnone⟩ | ⟨word, side', -, hh, e⟩ := hear_cases s other
    · exact absurd (hno.symm.trans hstart) (by simp)
    · have hzero : s.words other = 0 := Side.hear?_eq_none.mp hnone
      rw [e, hzero]
    · have hless : s.words other = side'.words (s.watch other) + 1 := Side.words_hear hh
      have hwatch : (s.hear other).watch other = s.watch other :=
        watch_step s (.hear other) other
      rw [hless, words, hwatch, e, followed_side, Nat.add_sub_cancel]
  · rw [if_neg ho, Nat.sub_zero]
    have hwatch : (s.hear signal).watch other = s.watch other := watch_step s (.hear signal) other
    have hside : (s.hear signal).side other = s.side other :=
      (unmoved (e := .hear signal) trivial (by simp) (by simpa [eq_comm] using ho)).1
    rw [words, words, hwatch, hside]

/-- What a follower does when it is left alone. -/
def turn : List SignalEvent :=
  [.greet .health, .greet .auth, .hear .health, .hear .auth, .hear .health, .hear .auth]

theorem hearHealth_started (f : Follower) (c : Coordinator) (w : Watch) :
    (f.hearHealth c w).1.started = f.started := by
  unfold Follower.hearHealth
  split <;> rfl

theorem hearAuth_started (f : Follower) (c : Coordinator) (w : Watch) :
    (f.hearAuth c w).1.started = f.started := by
  unfold Follower.hearAuth
  split <;> rfl

/-- One word from either side, the backend's first. -/
theorem hear_both (hstart : s.follower.started = true) :
    let p := s.follower.hearHealth s.system.coordinator s.health
    let q := p.1.hearAuth p.2 s.auth
    (s.hear .health).hear .auth = s.followed q.1 q.2 ∧ q.1.started = true := by
  intro p q
  have hp : p.1.started = true := (hearHealth_started _ _ _).trans hstart
  have hhealth : s.hear .health = s.followed p.1 p.2 := by
    rw [hear, if_neg (by simp [hstart])]
  refine ⟨?_, (hearAuth_started _ _ _).trans hp⟩
  rw [hhealth, hear, if_neg (by simp [followed, hp])]
  rfl

/-- Both first values, if they have not been passed on yet. -/
theorem greet_both (h : s.begun = s.follower.started) :
    let p := if s.follower.started then (s.follower, s.system.coordinator)
      else s.follower.start s.system.coordinator s.health s.auth
    (s.greet .health).greet .auth = { s.followed p.1 p.2 with begun := true } ∧
      p.1.started = true := by
  intro p
  dsimp only [p]
  by_cases hstart : s.follower.started = true
  · have hb : s.begun = true := h.trans hstart
    rw [if_pos hstart]
    refine ⟨?_, hstart⟩
    rw [greet, if_pos hb, greet, if_pos (by simp [hstart]), ← hb]
    rfl
  · have hb : ¬ s.begun = true := fun hb => hstart (h.symm.trans hb)
    have hstart' : s.follower.started = false := by simpa using hstart
    rw [if_neg hstart, greet, if_neg hb, greet, if_neg (by simp [followed, hstart'])]
    exact ⟨rfl, rfl⟩

/-- The steps of a turn are the turn of the follower, if it has not stopped half-way in greeting. -/
theorem run_turn (h : s.begun = s.follower.started) :
    s.run turn =
      { s.followed (s.follower.turn s.system.coordinator s.health s.auth).1
          (s.follower.turn s.system.coordinator s.health s.auth).2 with begun := true } := by
  obtain ⟨hgreet, hstart⟩ := greet_both h
  show ((((s.greet .health).greet .auth).hear .health).hear .auth |>.hear .health).hear .auth = _
  obtain ⟨hfirst, hstart⟩ := hear_both (s := { s.followed _ _ with begun := true }) hstart
  obtain ⟨hsecond, -⟩ := hear_both (s := { s.followed _ _ with begun := true }) hstart
  rw [hgreet, hfirst]
  exact hsecond

/-- A follower that is left alone comes to rest. -/
theorem settled_turn (s : SignalSystem) : (s.run turn).Settled := by
  have hstarted (s : SignalSystem) (signal : Signal) :
      (s.hear signal).follower.started = s.follower.started := hear_greeted s signal .auth
  have hbegun (s : SignalSystem) (signal : Signal) : (s.hear signal).begun = s.begun :=
    hear_greeted s signal .health
  let met := (s.greet .health).greet .auth
  have hmet : met.begun = true ∧ met.follower.started = true := by
    have hfirst : (s.greet .health).begun = true := by
      by_cases hb : s.begun = true
      · rw [greet, if_pos hb]; exact hb
      · rw [greet, if_neg hb]
    generalize hs' : s.greet .health = s' at hfirst
    have hmet' : met = s'.greet .auth := by rw [← hs']
    rw [hmet', greet]
    by_cases hb : (!s'.begun || s'.follower.started) = true
    · rw [if_pos hb]
      exact ⟨hfirst, by simpa [hfirst] using hb⟩
    · rw [if_neg hb]
      exact ⟨hfirst, rfl⟩
  show (((met.hear .health).hear .auth).hear .health |>.hear .auth).Settled
  refine settled_iff.mpr ⟨?_, ?_, fun signal => ?_⟩
  · simp only [hbegun, hmet.1]
  · simp only [hstarted, hmet.2]
  · have hle : met.words signal ≤ 2 := Side.words_le _ _
    rw [words_hear, words_hear, words_hear, words_hear]
    · cases signal <;> simp <;> omega
    · exact hmet.2
    · rw [hstarted]; exact hmet.2
    · rw [hstarted, hstarted]; exact hmet.2
    · rw [hstarted, hstarted, hstarted]; exact hmet.2

/-- A value that the gate is at already is passed on without any effect. -/
theorem untouched (h : (s.watch signal).value = s.gates.of signal) :
    (s.greet signal).system = s.system ∧ (s.hear signal).system = s.system := by
  have hsame : s.system.coordinator.setGate signal (s.watch signal).value = s.system.coordinator :=
    Coordinator.setGate_same h
  refine ⟨?_, ?_⟩
  · obtain e | ⟨-, -, -, hsystem⟩ := greet_cases s signal
    · rw [e]
    · rw [hsystem, hsame]
  · obtain ⟨e, -⟩ | ⟨word, side', -, hh, e⟩ := hear_cases s signal <;> rw [e]
    have htell : word.tell signal s.system.coordinator = s.system.coordinator := by
      obtain ⟨rfl, -⟩ | ⟨rfl, -⟩ := Side.hear?_cases hh
      · exact hsame
      · rfl
    rw [htell]
    rfl

/--
**Followed signals converge.**  Whatever is sent on the two signals and whatever else happens, in
any order, the gates are at the values sent last whenever the follower has nothing left to do,
and it is then finished exactly if both senders are gone; it is never finished before.  Left
alone it comes to that point, and a value that the gate is at already touches nothing.
-/
theorem gates_follow (system : System) (health auth : Bool) (events : List SignalEvent)
    (haside : ∀ e ∈ events, e.Aside) :
    let s := (initial system health auth).run events
    (s.Settled →
      s.gates =
        ⟨(Signal.auth.sent events).getLastD auth, (Signal.health.sent events).getLastD health⟩ ∧
      (s.follower.finished = true ↔ .drop .health ∈ events ∧ .drop .auth ∈ events)) ∧
    (s.follower.finished = true → .drop .health ∈ events ∧ .drop .auth ∈ events) ∧
    (s.run turn).Settled ∧
    ∀ signal, (s.watch signal).value = s.gates.of signal →
      (s.step (.greet signal)).system = s.system ∧ (s.step (.hear signal)).system = s.system := by
  intro s
  have hfollow : s.Following := (following_initial system health auth).run haside
  have hwatch (signal : Signal) : s.watch signal =
      events.foldl (Watch.after · signal) ((initial system health auth).watch signal) :=
    watch_run _ events signal
  have hfinished : s.follower.finished = true ↔ s.follower.started = true ∧
      (s.side .health).live = false ∧ (s.side .auth).live = false := by
    simp [Follower.finished, side, and_assoc]
  have hsent (signal : Signal) := Watch.foldl_after (w := (initial system health auth).watch signal)
    signal (by cases signal <;> exact Nat.one_pos) (by cases signal <;> rfl) events
  simp only [← hwatch] at hsent
  refine ⟨fun hrest => ?_, fun hf => ?_, settled_turn s, fun signal => untouched⟩
  · obtain ⟨-, hstart, hwords⟩ := settled_iff.mp hrest
    have hat (signal : Signal) := (hfollow.follows signal (hfollow.greeted hstart signal)).rest
      (Side.hear?_eq_none.mpr (hwords signal))
    refine ⟨?_, ?_⟩
    · have hauth := (hat .auth).1.trans (hsent .auth).1
      have hhealth := (hat .health).1.trans (hsent .health).1
      exact congrArg₂ Gates.mk hauth hhealth
    · rw [hfinished, (hat .health).2, (hat .auth).2, (hsent .health).2, (hsent .auth).2]
      simp [hstart]
  · obtain ⟨hstart, hhealth, hauth⟩ := hfinished.mp hf
    have hend (signal : Signal) (hlive : (s.side signal).live = false) : .drop signal ∈ events :=
      (hsent signal).2.mp
        ((hfollow.follows signal (hfollow.greeted hstart signal)).ended hlive).2
    exact ⟨hend .health hhealth, hend .auth hauth⟩

/-- Both senders are gone right after their last values, which the follower has not heard yet. -/
def abandoned : List SignalEvent :=
  [.greet .health, .send .auth false, .greet .auth, .hear .health,
    .poll (.register { key := "trains", interval := .ofSeconds 60, requiresAuth := true }),
    .send .auth true, .send .health false, .send .auth false, .hear .auth, .send .health true,
    .send .health false, .drop .health, .send .auth true, .drop .auth]

theorem gates_follow_abandoned :
    let s := ((initial (System.initial {} default ⟨[], []⟩) true true).run abandoned).run turn
    s.Settled ∧ s.gates = ⟨true, false⟩ ∧ s.follower.finished = true := by
  have haside : ∀ e ∈ abandoned ++ turn, e.Aside := by decide
  have hrun : (initial (System.initial {} default ⟨[], []⟩) true true).run (abandoned ++ turn) =
      ((initial (System.initial {} default ⟨[], []⟩) true true).run abandoned).run turn := by
    simp only [run, List.foldl_append]
  obtain ⟨hrest, -⟩ := gates_follow (System.initial {} default ⟨[], []⟩) true true _ haside
  rw [hrun] at hrest
  have hsettled :=
    settled_turn ((initial (System.initial {} default ⟨[], []⟩) true true).run abandoned)
  obtain ⟨hgates, hfinished⟩ := hrest hsettled
  exact ⟨hsettled, hgates, hfinished.mpr (by decide)⟩

end SignalSystem

end FeedPoller
