/-
Foreground signals are neither lost nor multiplied.

A listener that was busy is woken once for every signal that the channel has kept for it, and
once for all that it has not.  Each time it refreshes the polls, and any number of refreshes comes
to what one does.  So it does not matter how many signals there were, and what remains to be seen is
that the listener is still there: a coordinator that listens does so until it is disposed
of, and as long as it does nothing stops the listener.
-/
import FeedPoller.Proofs.Poll.Disposal
import FeedPoller.Proofs.Poll.Refresh
import FeedPoller.Session.Foreground
import FeedPoller.Simulation.Tasks

namespace FeedPoller

/-! ### Waking up -/

namespace Listener

/-- A listener that is woken has one wake-up less before it. -/
theorem wake?_cases (l : Listener) (sent : Nat) :
    (l.wakeUps sent = 0 ∧ l.wake? sent = none) ∨
    ∃ l', l.wake? sent = some l' ∧ l.wakeUps sent = l'.wakeUps sent + 1 := by
  unfold wake? wakeUps signalCapacity
  by_cases hlost : l.heard + 16 < sent
  · refine Or.inr ⟨_, if_pos hlost, ?_⟩
    show min (sent - l.heard) (16 + 1) = min (sent - (sent - 16)) (16 + 1) + 1
    omega
  · rw [if_neg hlost]
    by_cases hbehind : l.heard < sent
    · refine Or.inr ⟨_, if_pos hbehind, ?_⟩
      show min (sent - l.heard) (16 + 1) = min (sent - (l.heard + 1)) (16 + 1) + 1
      omega
    · exact Or.inl ⟨by omega, if_neg hbehind⟩

theorem wakeUps_behind (heard k : Nat) :
    wakeUps ⟨heard⟩ (heard + k) = min k (signalCapacity + 1) := by
  rw [wakeUps, Nat.add_sub_cancel_left]

end Listener

/-! ### Listening -/

namespace Coordinator

variable {c c' : Coordinator} {r q : Registration} {d : Duration}

/-- No listener will be taken any longer: there is one, or there can be none. -/
def Taken (c : Coordinator) : Prop := c.disposed = true ∨ c.listening = true

theorem listen_cases (c : Coordinator) :
    (c.Taken ∧ c.listen = (c, false)) ∨
    (c.disposed = false ∧ c.listening = false ∧
      c.listen = ({ c with listening := true }, true)) := by
  unfold listen Taken
  cases c.disposed <;> cases c.listening <;> simp

theorem schedule_listening : (c.schedule r d).listening = c.listening := by
  obtain ⟨_, _, _, -, -, e⟩ := schedule_shape c r d
  rw [e]
  rfl

theorem Move.listening (h : Move c c') (hl : c.listening = true) : c'.listening = true := by
  cases h with
  | schedule => exact schedule_listening.trans hl
  | suspend | draw | gates => exact hl
  | listen => rfl

theorem Moves.listening (h : Moves c c') (hl : c.listening = true) : c'.listening = true := by
  induction h with
  | refl => exact hl
  | tail _ hmove ih => exact hmove.listening ih

theorem append_listening (c : Coordinator) (o : PollOptions) (awaited : Option Nat) :
    (c.append o awaited).1.listening = c.listening := by
  obtain ⟨-, e⟩ | ⟨-, e⟩ := append_cases c o awaited <;> rw [e]
  · rfl
  · exact schedule_listening (c := c.join _)

end Coordinator

namespace System

open Coordinator

variable {s s' : System} {e : Event}

/-- A coordinator listens until it is disposed of. -/
theorem Outcome.listening (ho : Outcome s e s') (hs : s.Sound)
    (hl : s.coordinator.listening = true) (hd : s'.coordinator.disposed = false) :
    s'.coordinator.listening = true := by
  cases ho with
  | moves hm => exact hm.listening hl
  | @register o =>
    obtain ⟨_, _, hframe⟩ := vacate_frame s.coordinator o.key
    refine (append_listening _ _ _).trans ?_
    rw [hframe]
    exact hl
  | dispose =>
    obtain ⟨hd', e⟩ | ⟨-, hd', -⟩ := dispose_cases hs.tidy
    · rw [e] at hd
      exact absurd (hd.symm.trans hd') (by simp)
    · exact absurd (hd.symm.trans hd') (by simp)
  | @settle run failed r =>
    obtain ⟨_, _, _, -, -, e⟩ :=
      settle_shape s.coordinator (r.afterRun run s.coordinator.clock.wall failed)
    dsimp only
    rw [e]
    exact hl
  | nothing | cleanup | release | elapse | wake | late | skip | begin | unnoticed => exact hl

theorem Sound.taken_step (hs : s.Sound) (h : s.coordinator.Taken) (e : Event) :
    (s.step e).coordinator.Taken := by
  have ho := hs.outcome e
  rcases h with hd | hl
  · exact Or.inl (ho.disposed hs hd)
  · cases hd : (s.step e).coordinator.disposed with
    | true => exact Or.inl hd
    | false => exact Or.inr (ho.listening hs hl hd)

/-- To ask for a listener is to do nothing, or to have one taken. -/
theorem listen_cases (halive : s.alive = true) :
    (s.coordinator.Taken ∧ s.coordinator.listen.2 = false ∧ s.step .listen = s) ∨
    (¬ s.coordinator.Taken ∧ s.coordinator.listen.2 = true ∧
      (s.step .listen).coordinator.listening = true) := by
  have hstep : s.step .listen = { s with coordinator := s.coordinator.listen.1 } := if_pos halive
  obtain ⟨ht, e⟩ | ⟨hd, hl, e⟩ := s.coordinator.listen_cases <;> rw [hstep, e]
  · exact Or.inl ⟨ht, rfl, rfl⟩
  · exact Or.inr ⟨by simp [Coordinator.Taken, hd, hl], rfl, rfl⟩

theorem refresh_alive (s : System) : (s.step .refresh).alive = s.alive := by
  show (s.call _).alive = s.alive
  unfold call
  split <;> rfl

end System

namespace ForegroundSystem

variable {s : ForegroundSystem} {l : Listener} {e : ForegroundEvent}

theorem run_cons (s : ForegroundSystem) (e : ForegroundEvent) (rest : List ForegroundEvent) :
    s.run (e :: rest) = (s.step e).run rest := rfl

/-! ### What an event can come to -/

/-- What an event can come to. -/
inductive Outcome (s : ForegroundSystem) : ForegroundEvent → ForegroundSystem → Prop where
  | nothing {e : ForegroundEvent} : Outcome s e s
  | poll (e : Event) : Outcome s (.poll e) { s with
      system := s.system.step e
      listener := if (s.system.step e).coordinator.listening then s.listener else none }
  | taken (hfree : ¬ s.system.coordinator.Taken) (halive : s.system.alive = true)
      (hopen : s.closed = false) : Outcome s .setup { s with
        system := s.system.step .listen
        listener := some (.joining s.sent) }
  | sent (hopen : s.closed = false) (hl : s.listener.isSome) :
      Outcome s .emit { s with sent := s.sent + 1 }
  | closed : Outcome s .close { s with closed := true }
  | woken {l l' : Listener} (hl : s.listener = some l) (hwake : l.wake? s.sent = some l')
      (halive : s.system.alive = true) : Outcome s .hear { s with
        system := s.system.step .refresh
        listener := some l' }
  | stopped : Outcome s .hear { s with listener := none }

theorem outcome (s : ForegroundSystem) (e : ForegroundEvent) : Outcome s e (s.step e) := by
  cases e with
  | poll e => exact .poll e
  | setup =>
    by_cases hable : s.closed = false ∧ s.system.alive = true
    · have hanswer : s.answer .setup = some s.system.coordinator.listen.2 := by
        simp [answer, hable]
      obtain ⟨-, hno, hsame⟩ | ⟨hfree, hyes, -⟩ := s.system.listen_cases hable.2
      · have hstep : s.step .setup = s := by simp [step, hanswer, hno, hsame]
        rw [hstep]
        exact .nothing
      · have hstep : s.step .setup = { s with
            system := s.system.step .listen, listener := some (.joining s.sent) } := by
          simp [step, hanswer, hyes]
        rw [hstep]
        exact .taken hfree hable.2 hable.1
    · have hanswer : s.answer .setup = none := by
        refine if_pos ?_
        cases hclosed : s.closed <;> simp_all
      have hstep : s.step .setup = s := by simp [step, hanswer]
      rw [hstep]
      exact .nothing
  | emit =>
    by_cases hkept : s.closed = false ∧ s.listener.isSome
    · have hstep : s.step .emit = { s with sent := s.sent + 1 } := by
        simp [step, hkept.1, Option.isSome_iff_ne_none.mp hkept.2]
      rw [hstep]
      exact .sent hkept.1 hkept.2
    · have hstep : s.step .emit = s := by
        refine if_pos ?_
        cases hclosed : s.closed <;> cases hl : s.listener <;> simp_all
      rw [hstep]
      exact .nothing
  | close => exact .closed
  | hear =>
    show Outcome s .hear s.hear
    unfold hear
    split
    · exact .nothing
    · next l hl =>
      split
      · next l' hwake =>
        split
        · next halive => exact .woken hl hwake halive
        · exact .stopped
      · split
        · exact .stopped
        · exact .nothing

/-- Whatever happens, the system makes one step at most. -/
theorem Outcome.system {s' : ForegroundSystem} (ho : Outcome s e s') :
    s'.system = s.system ∨ ∃ e', s'.system = s.system.step e' := by
  cases ho with
  | nothing | sent | closed | stopped => exact Or.inl rfl
  | poll e => exact Or.inr ⟨e, rfl⟩
  | taken => exact Or.inr ⟨.listen, rfl⟩
  | woken => exact Or.inr ⟨.refresh, rfl⟩

/-- What holds in every history. -/
structure Reached (s : ForegroundSystem) : Prop where
  sound : s.system.Sound
  faultless : s.system.coordinator.Faultless
  prompt : s.system.coordinator.Prompt
  /-- While there is a listener the coordinator remembers that it listens. -/
  installed : s.listener.isSome → s.system.coordinator.listening = true

theorem reached_initial (config : CoordinatorConfig) (clock : Clock) (draws : Draws) :
    (initial config clock draws).Reached := by
  obtain ⟨hfaultless, hprompt⟩ := System.faultless_prompt_run config clock draws []
  refine ⟨System.sound_initial config clock draws, hfaultless, hprompt, ?_⟩
  simp [initial]

theorem Outcome.installed {s' : ForegroundSystem} (ho : Outcome s e s') (h : s.Reached)
    (hsome : s'.listener.isSome) : s'.system.coordinator.listening = true := by
  cases ho with
  | nothing | sent | closed => exact h.installed hsome
  | poll e =>
    dsimp only at hsome ⊢
    split at hsome
    · assumption
    · exact absurd hsome (by simp)
  | taken hfree halive =>
    obtain ⟨htaken, -⟩ | ⟨-, -, hlistens⟩ := s.system.listen_cases halive
    · exact absurd htaken hfree
    · exact hlistens
  | woken hl _ halive =>
    show (s.system.call _).coordinator.listening = true
    rw [System.call, if_pos halive]
    exact (Coordinator.refresh_moves h.sound.tidy).listening (h.installed (by simp [hl]))
  | stopped => exact absurd hsome (by simp)

theorem Reached.step (h : s.Reached) (e : ForegroundEvent) : (s.step e).Reached := by
  have ho := s.outcome e
  refine ⟨?_, ?_, ?_, ho.installed h⟩ <;> obtain hsame | ⟨e', hstep⟩ := ho.system
  · exact hsame ▸ h.sound
  · exact hstep ▸ h.sound.step e'
  · exact hsame ▸ h.faultless
  · exact hstep ▸ h.sound.faultless_step h.faultless e'
  · exact hsame ▸ h.prompt
  · exact hstep ▸ h.sound.prompt_step e' h.prompt

theorem Reached.run (h : s.Reached) (events : List ForegroundEvent) : (s.run events).Reached := by
  induction events generalizing s with
  | nil => exact h
  | cons e rest ih => exact ih (h.step e)

/-! ### One listener -/

theorem Reached.taken_step (h : s.Reached) (ht : s.system.coordinator.Taken)
    (e : ForegroundEvent) : (s.step e).system.coordinator.Taken := by
  obtain hsame | ⟨e', hstep⟩ := (s.outcome e).system
  · exact hsame ▸ ht
  · exact hstep ▸ h.sound.taken_step ht e'

/-- A coordinator that says it has taken a listener could take one, and will take no other. -/
theorem taken_of_answer (h : s.answer e = some true) :
    ¬ s.system.coordinator.Taken ∧ (s.step e).system.coordinator.Taken := by
  have hlisten (halive : s.system.alive = true) (hyes : s.system.coordinator.listen.2 = true) :
      ¬ s.system.coordinator.Taken ∧ (s.system.step .listen).coordinator.Taken := by
    obtain ⟨-, hno, -⟩ | ⟨hfree, -, hlistens⟩ := s.system.listen_cases halive
    · exact absurd (hno.symm.trans hyes) (by simp)
    · exact ⟨hfree, Or.inr hlistens⟩
  cases halive : s.system.alive with
  | false =>
    cases e with
    | poll e => cases e <;> simp [answer, halive] at h
    | setup => simp [answer, halive] at h
    | emit | close | hear => simp [answer] at h
  | true =>
    cases e with
    | poll e =>
      cases e with
      | listen => exact hlisten halive (by simpa [answer, halive] using h)
      | _ => simp [answer] at h
    | setup =>
      have hyes : s.closed = false ∧ s.system.coordinator.listen.2 = true := by
        simpa [answer, halive] using h
      have hsystem : (s.step .setup).system = s.system.step .listen := by
        simp [step, answer, halive, hyes.1]
      rw [hsystem]
      exact hlisten halive hyes.2
    | emit | close | hear => simp [answer] at h

/-- **A coordinator takes one listener at most.** -/
theorem Reached.taken_once (h : s.Reached) (events : List ForegroundEvent) :
    (s.answers events).count true ≤ 1 ∧
      (s.system.coordinator.Taken → (s.answers events).count true = 0) := by
  induction events generalizing s with
  | nil => simp [answers]
  | cons e rest ih =>
    obtain ⟨hone, hnone⟩ := ih (h.step e)
    rw [answers, List.count_append]
    by_cases hyes : s.answer e = some true
    · obtain ⟨hfree, htaken⟩ := taken_of_answer hyes
      rw [hyes, hnone htaken]
      exact ⟨by simp, fun ht => absurd ht hfree⟩
    · have hno : (s.answer e).toList.count true = 0 :=
        List.count_eq_zero.mpr fun hmem => hyes (Option.mem_toList.mp hmem)
      rw [hno, Nat.zero_add]
      exact ⟨hone, fun ht => hnone (h.taken_step ht e)⟩

/-! ### Between two turns of the listener -/

theorem Reached.undisposed (h : s.Reached) (events : List ForegroundEvent)
    (hd : (s.run events).system.coordinator.disposed = false) :
    s.system.coordinator.disposed = false := by
  induction events generalizing s with
  | nil => exact hd
  | cons e rest ih =>
    have hafter := ih (h.step e) hd
    cases hbefore : s.system.coordinator.disposed with
    | false => rfl
    | true =>
      obtain hsame | ⟨e', hstep⟩ := (s.outcome e).system
      · rw [hsame] at hafter
        exact hbefore.symm.trans hafter
      · rw [hstep] at hafter
        exact ((h.sound.outcome e').disposed h.sound hbefore).symm.trans hafter

/-- The listener stays where it is until it has its turn. -/
theorem Reached.listener_step (h : s.Reached) (hl : s.listener = some l) (he : e ≠ .hear)
    (hd : (s.step e).system.coordinator.disposed = false) : (s.step e).listener = some l := by
  have hlistens := h.installed (by simp [hl])
  have ho := s.outcome e
  generalize s.step e = s' at ho hd
  cases ho with
  | nothing | sent | closed => exact hl
  | poll e =>
    have hlistens' := (h.sound.outcome e).listening h.sound hlistens hd
    exact (if_pos hlistens').trans hl
  | taken hfree => exact absurd (Or.inr hlistens) hfree
  | woken | stopped => exact absurd rfl he

/-- Where there is a listener every signal counts, as long as anybody can send. -/
theorem sent_step (hl : s.listener = some l) (hopen : (s.step e).closed = false) :
    s.closed = false ∧ (s.step e).sent = s.sent + [e].count .emit := by
  cases e with
  | emit =>
    have hclosed : s.closed = false := by
      cases hclosed : s.closed with
      | false => rfl
      | true => simp [step, hclosed] at hopen
    exact ⟨hclosed, by simp [step, hclosed, hl]⟩
  | close => exact absurd hopen (by simp [step])
  | poll e => exact ⟨hopen, by simp [step]⟩
  | setup =>
    have ho := s.outcome .setup
    generalize s.step .setup = s' at ho hopen
    cases ho <;> exact ⟨hopen, by simp⟩
  | hear =>
    have ho := s.outcome .hear
    generalize s.step .hear = s' at ho hopen
    cases ho <;> exact ⟨hopen, by simp⟩

/-- The listener stays where it is, and as long as anybody can send every signal counts. -/
theorem Reached.listener_run (h : s.Reached) (hl : s.listener = some l)
    {events : List ForegroundEvent} (hevents : .hear ∉ events)
    (hd : (s.run events).system.coordinator.disposed = false) :
    (s.run events).listener = some l ∧
      ((s.run events).closed = false →
        s.closed = false ∧ (s.run events).sent = s.sent + events.count .emit) := by
  induction events generalizing s with
  | nil => exact ⟨hl, fun hopen => ⟨hopen, rfl⟩⟩
  | cons e rest ih =>
    have he : e ≠ .hear := fun he => hevents (by simp [he])
    have hl' := h.listener_step hl he ((h.step e).undisposed rest hd)
    obtain ⟨hlast, hcount⟩ := ih (h.step e) hl' (fun hmem => hevents (by simp [hmem])) hd
    refine ⟨hlast, fun hopen => ?_⟩
    obtain ⟨hopen', hsent⟩ := hcount hopen
    obtain ⟨hfirst, hsent'⟩ := sent_step hl hopen'
    refine ⟨hfirst, ?_⟩
    rw [run_cons, hsent, hsent', Nat.add_assoc, ← List.count_append, List.singleton_append]

/-! ### The turn of the listener -/

theorem run_hear_none (hl : s.listener = none) (n : Nat) :
    s.run (List.replicate n .hear) = s := by
  have hhear : s.hear = s := by
    unfold hear
    rw [hl]
  induction n with
  | zero => rfl
  | succ n ih =>
    rw [List.replicate_succ, run_cons]
    show s.hear.run _ = s
    rw [hhear, ih]

/-- The listener refreshes the polls once for each of its wake-ups, and then no more. -/
theorem run_hear (halive : s.system.alive = true) (hl : s.listener = some l) (n : Nat) :
    (s.run (List.replicate n .hear)).system =
      s.system.run (List.replicate (min n (l.wakeUps s.sent)) .refresh) := by
  induction n generalizing s l with
  | zero => rw [Nat.zero_min]; rfl
  | succ n ih =>
    rw [List.replicate_succ, run_cons]
    show (s.hear.run _).system = _
    obtain ⟨hcaught, hwake⟩ | ⟨l', hwake, hleft⟩ := l.wake?_cases s.sent
    · have hstill : (s.hear.run (List.replicate n .hear)).system = s.system := by
        cases hclosed : s.closed with
        | true =>
          have hhear : s.hear = { s with listener := none } := by simp [hear, hl, hwake, hclosed]
          rw [hhear, run_hear_none rfl]
        | false =>
          have hhear : s.hear = s := by simp [hear, hl, hwake, hclosed]
          rw [hhear, ih halive hl, hcaught, Nat.min_zero]
          rfl
      rw [hstill, hcaught, Nat.min_zero]
      rfl
    · have hhear : s.hear = { s with system := s.system.step .refresh, listener := some l' } := by
        simp [hear, hl, hwake, halive]
      rw [hhear, ih ((System.refresh_alive _).trans halive) rfl, hleft, Nat.add_min_add_right,
        List.replicate_succ]
      rfl

end ForegroundSystem

/-! ### The listener of a simulated world -/

namespace Simulation.World

variable {w : World} {l : ListenerTask} {channel : Channel}

theorem hearSignals_system (hchannel : w.channels[l.channel]? = some channel)
    (halive : w.system.alive = true) (fuel : Nat) :
    (w.hearSignals l fuel).system =
      w.system.run (List.replicate (min fuel (l.place.wakeUps channel.sent)) .refresh) := by
  induction fuel generalizing w l with
  | zero => rw [Nat.zero_min]; rfl
  | succ fuel ih =>
    rw [hearSignals, hchannel]
    dsimp only
    obtain ⟨hcaught, hwake⟩ | ⟨place, hwake, hleft⟩ := l.place.wake?_cases channel.sent
    · rw [hwake, hcaught, Nat.min_zero]
      dsimp only
      split <;> rfl
    · rw [hwake, hleft, Nat.add_min_add_right, List.replicate_succ]
      simp only [halive, if_true]
      exact ih hchannel ((System.refresh_alive _).trans halive)

/-- A listener in a simulated world deals with all signals in one turn. -/
theorem runListener_system (hl : w.listener = some l) (hgoes : l.stopping = false)
    (hchannel : w.channels[l.channel]? = some channel) (halive : w.system.alive = true) :
    w.runListener.system =
      w.system.run (List.replicate (l.place.wakeUps channel.sent) .refresh) := by
  have hfuel : min (signalCapacity + 2) (l.place.wakeUps channel.sent)
      = l.place.wakeUps channel.sent := by
    unfold Listener.wakeUps
    omega
  rw [runListener, hl]
  simp only [hgoes, Bool.false_eq_true, if_false]
  rw [hearSignals_system hchannel halive, hfuel]

end Simulation.World

namespace ForegroundSystem

/-! ### Signals in a batch -/

/--
**Foreground signals are neither lost nor multiplied.**  When a listener has heard everything, and
`k` signals are sent before its next turn, it refreshes the polls `min k 17` times.  Of every
registration that may run and does not, exactly one run begins at once for all these signals; its
timer from before is gone, and after the run the next one begins an interval later.  No
other registration begins a run because of the signals.  And a coordinator takes one listener at
most, in all its life.
-/
theorem signals_coalesce (config : CoordinatorConfig) (clock : Clock) (draws : Draws)
    (before between : List ForegroundEvent) (k : Nat) :
    let start := initial config clock draws
    let caught := start.run before
    let s := caught.run between
    let turns := min k (signalCapacity + 1)
    let done := (s.run (List.replicate turns .hear)).system
    (∀ events, (start.answers events).count true ≤ 1) ∧
    (caught.listener = some (.joining caught.sent) → .hear ∉ between →
      s.sent = caught.sent + k → 1 ≤ k → s.system.alive = true →
      s.system.coordinator.disposed = false → s.system.now.nanos < Instant.horizon →
      (s.closed = false → between.count .emit = k) ∧
      (∀ n, (s.run (List.replicate n .hear)).system =
        s.system.run (List.replicate (min n turns) .refresh)) ∧
      ∀ r ∈ s.system.coordinator.registry,
        (r.isPaused s.system.coordinator.gates = false → r.inFlight = false →
          s.system.RunsOnce done r) ∧
        (r.isPaused s.system.coordinator.gates = true ∨ r.inFlight = true →
          s.system.LeftAlone done r)) := by
  intro start caught s turns done
  have hstart := reached_initial config clock draws
  refine ⟨fun events => (hstart.taken_once events).1, ?_⟩
  intro hl hquiet hk hpos halive hd hnow
  have hcaught : caught.Reached := hstart.run before
  have h : s.Reached := hcaught.run between
  obtain ⟨hlistener, hcount⟩ := hcaught.listener_run hl hquiet hd
  have hturns : (Listener.joining caught.sent).wakeUps s.sent = turns := by
    rw [hk]
    exact Listener.wakeUps_behind caught.sent k
  have hhears (n : Nat) : (s.run (List.replicate n .hear)).system =
      s.system.run (List.replicate (min n turns) .refresh) :=
    hturns ▸ run_hear halive hlistener n
  have hdone : done = s.system.run (List.replicate (turns - 1 + 1) .refresh) := by
    have hpred : turns - 1 + 1 = turns := Nat.sub_add_cancel (by
      show 1 ≤ min k (signalCapacity + 1)
      exact Nat.le_min.mpr ⟨hpos, Nat.succ_le_succ (Nat.zero_le _)⟩)
    rw [hpred]
    exact (hhears turns).trans (by rw [Nat.min_self])
  have hrefreshed : System.Refreshed s.system done :=
    hdone ▸ h.sound.refreshed_run halive hd hnow (turns - 1)
  have hend := h.run (List.replicate turns .hear)
  refine ⟨fun hopen => ?_, hhears, fun r hr => ⟨fun hp hidle => ?_, fun hor => ?_⟩⟩
  · have hsent := (hcount hopen).2
    have hsent' : s.sent = caught.sent + between.count .emit := hsent
    omega
  · exact hrefreshed.runsOnce h.sound hend.sound hend.faultless hend.prompt
      (Coordinator.mem_refreshable.mpr ⟨hr, hp, hidle⟩)
  · refine hrefreshed.leftAlone h.sound hend.sound hr fun hin => ?_
    obtain ⟨-, hp, hidle⟩ := Coordinator.mem_refreshable.mp hin
    rcases hor with hpaused | hflight
    · exact absurd (hp.symm.trans hpaused) (by simp)
    · exact absurd (hidle.symm.trans hflight) (by simp)

/-- One poll waits for its next run, one is paused, and a run of the third goes on. -/
def away : List ForegroundEvent :=
  [.poll (.register { key := "feed", interval := .ofSeconds 60 }),
    .poll (.register { key := "inbox", interval := .ofSeconds 5 }),
    .poll (.register { key := "logs", interval := .ofSeconds 5 }),
    .setup, .poll .listen, .poll (.fire 0), .poll (.finish 0 false), .poll (.pause "logs"),
    .poll (.elapse (.ofSeconds 1)), .poll (.fire 1)]

theorem signals_coalesce_away :
    let start := initial {} default ⟨[], []⟩
    let caught := start.run away
    let s := caught.run (List.replicate 20 .emit)
    let turns := min 20 (signalCapacity + 1)
    let done := (s.run (List.replicate turns .hear)).system
    turns = 17 ∧
    caught.listener = some (.joining caught.sent) ∧ s.sent = caught.sent + 20 ∧
    (start.answers away).count true ≤ 1 ∧
    (s.run (List.replicate 30 .hear)).system =
      s.system.run (List.replicate (min 30 turns) .refresh) ∧
    (done.run [.fire 20]).dueTimers = [] ∧
    (∃ r ∈ s.system.coordinator.registry, r.key = "feed" ∧ s.system.RunsOnce done r) ∧
    (∃ r ∈ s.system.coordinator.registry, r.key = "logs" ∧ s.system.LeftAlone done r) ∧
    ∃ r ∈ s.system.coordinator.registry, r.key = "inbox" ∧ s.system.LeftAlone done r := by
  intro start caught s turns done
  have hl : caught.listener = some (.joining caught.sent) := by decide +kernel
  have hsent : s.sent = caught.sent + 20 := by decide +kernel
  have h := signals_coalesce {} default ⟨[], []⟩ away (List.replicate 20 .emit) 20
  extract_lets at h
  obtain ⟨honce, hbatch⟩ := h
  obtain ⟨-, hhears, hall⟩ := hbatch hl (by simp) hsent (by decide) (by decide +kernel)
    (by decide +kernel) (by decide +kernel)
  have hfeed : ∃ r ∈ s.system.coordinator.registry, r.key = "feed" ∧
      r.isPaused s.system.coordinator.gates = false ∧ r.inFlight = false := by decide +kernel
  have hlogs : ∃ r ∈ s.system.coordinator.registry, r.key = "logs" ∧
      r.isPaused s.system.coordinator.gates = true := by decide +kernel
  have hinbox : ∃ r ∈ s.system.coordinator.registry, r.key = "inbox" ∧ r.inFlight = true := by
    decide +kernel
  obtain ⟨feed, hfeed, hfeedkey, hp, hidle⟩ := hfeed
  obtain ⟨logs, hlogs, hlogskey, hpaused⟩ := hlogs
  obtain ⟨inbox, hinbox, hinboxkey, hflight⟩ := hinbox
  exact ⟨rfl, hl, hsent, honce away, hhears 30, by decide +kernel,
    ⟨feed, hfeed, hfeedkey, (hall feed hfeed).1 hp hidle⟩,
    ⟨logs, hlogs, hlogskey, (hall logs hlogs).2 (Or.inl hpaused)⟩,
    ⟨inbox, hinbox, hinboxkey, (hall inbox hinbox).2 (Or.inr hflight)⟩⟩

end ForegroundSystem

end FeedPoller
