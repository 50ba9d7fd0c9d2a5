/-
Disposal is final.

A coordinator that has been disposed of stays that way: no event takes the mark back, so the
registry, which `Tidy` ties to the mark, stays empty, and with it the table of timers.  Much
may still be on its way when the call is made.  Timers have gone off and wait for their
turn, runs go on and call the coordinator when they end or in between, signals have been sent
and not been heard.  All of that comes as later events here, in any order.  With nothing
registered none of them finds anything to act on.
-/
import FeedPoller.Proofs.Poll.Starts

namespace FeedPoller

namespace Coordinator

variable {c : Coordinator} {o : PollOptions}

/-- Where nothing is registered no timer is armed. -/
theorem Tidy.timers_nil (h : c.Tidy) (hr : c.registry = []) : c.timers = [] := by
  refine List.eq_nil_iff_forall_not_mem.mpr fun t ht => ?_
  obtain ⟨r, hmem, -⟩ := h.owner t ht
  rw [hr] at hmem
  exact absurd hmem (by simp)

/-- After disposal options without a fault are refused for that reason. -/
theorem register_disposed (hd : c.disposed = true) (hkey : Text.isBlank o.key = false)
    (hinterval : o.interval.isZero = false) : c.register o = (c, .error .disposed) := by
  have hfault : o.fault? = none := by simp [PollOptions.fault?, hkey, hinterval]
  simp [register, hfault, hd]

end Coordinator

namespace System

open Coordinator

variable {s s' : System} {e : Event}

/-- No event takes a disposal back. -/
theorem Outcome.disposed (ho : Outcome s e s') (h : s.Sound)
    (hd : s.coordinator.disposed = true) : s'.coordinator.disposed = true := by
  have hempty {r : Registration} (hr : r ∈ s.coordinator.registry) : False :=
    absurd ((h.undisposed hr).symm.trans hd) (by simp)
  cases ho with
  | nothing => exact hd
  | moves hm => exact (hm.spec h.tidy).2.2.disposed.trans hd
  | register _ _ hd' => exact absurd (hd'.symm.trans hd) (by simp)
  | dispose =>
      obtain ⟨-, e⟩ | ⟨-, hd', -⟩ := dispose_cases h.tidy
      · rw [e]; exact hd
      · exact hd'
  | cleanup hr _ | skip _ hr _ _ _ | begin _ _ hr _ _ _ | settle _ hr _ => exact (hempty hr).elim
  | release | elapse | wake | late | unnoticed => exact hd

/-- Once the coordinator has been disposed of nothing makes a run begin. -/
theorem Sound.started_none (h : s.Sound) (hd : s.coordinator.disposed = true) (e : Event) :
    s.started e = none := by
  cases hst : s.started e with
  | none => rfl
  | some n =>
      cases e with
      | fire m =>
          obtain ⟨run, hrun, -⟩ := Option.map_eq_some_iff.mp hst
          obtain ⟨r, t, hright⟩ := h.rightful hrun
          exact absurd (hright.undisposed.symm.trans hd) (by simp)
      | _ => exact absurd hst (by simp [started])

/-- What begins no run leaves no other runs going on than there were. -/
theorem Sound.runs_subset (h : s.Sound) (hst : s.started e = none) :
    ∀ run ∈ (s.step e).runs, run ∈ s.runs := by
  intro run hrun
  by_contra hnew
  obtain ⟨n, rfl, hbegan⟩ := (h.outcome e).began h hrun hnew
  rw [started, hbegan] at hst
  exact absurd hst (by simp)

/-- A system that has been disposed of, in the middle of everything. -/
structure Over (s : System) : Prop where
  sound : s.Sound
  disposed : s.coordinator.disposed = true

theorem Over.step (h : s.Over) (e : Event) : (s.step e).Over :=
  ⟨h.sound.step e, (h.sound.outcome e).disposed h.sound h.disposed⟩

theorem Over.run (h : s.Over) (events : List Event) :
    (s.run events).Over ∧ s.starts events = [] ∧ ∀ run ∈ (s.run events).runs, run ∈ s.runs := by
  induction events generalizing s with
  | nil => exact ⟨h, rfl, fun _ hrun => hrun⟩
  | cons e rest ih =>
      obtain ⟨hover, hstarts, hruns⟩ := ih (h.step e)
      have hnone := h.sound.started_none h.disposed e
      refine ⟨hover, ?_, fun run hrun => h.sound.runs_subset hnone run (hruns run hrun)⟩
      rw [starts, hnone, hstarts]
      rfl

/-- The end of a run changes nothing where nothing is registered. -/
theorem Over.finish (h : s.Over) (id : Nat) (failed : Bool) :
    (s.finish id failed).coordinator = s.coordinator := by
  obtain ⟨-, e⟩ | ⟨run, -, -, ⟨-, e⟩ | ⟨r, hr, -, -⟩⟩ := h.sound.finish_cases id failed
  · rw [e]
  · rw [e]
  · exact absurd ((h.sound.undisposed hr).symm.trans h.disposed) (by simp)

/-- Whoever holds the coordinator can dispose of it. -/
theorem Sound.over_dispose (h : s.Sound) (halive : s.alive = true) : (s.step .dispose).Over := by
  refine ⟨h.step .dispose, ?_⟩
  show (s.call (·.dispose)).coordinator.disposed = true
  rw [System.call, if_pos halive]
  obtain ⟨hd, e⟩ | ⟨-, hd, -⟩ := dispose_cases h.tidy
  · show s.coordinator.dispose.disposed = true
    rw [e]; exact hd
  · exact hd

/--
**Disposal is final.**  Whatever has happened before and whatever comes after it, no run begins
any more and nothing is registered or armed; what is asked for is refused, a refresh finds no
poll, no listener is taken, and the end of a run that was going on changes nothing.
-/
theorem disposal_final (config : CoordinatorConfig) (clock : Clock) (draws : Draws)
    (before after : List Event) (h : ((initial config clock draws).run before).alive = true) :
    let ended := ((initial config clock draws).run before).step .dispose
    let s := ended.run after
    let c := s.coordinator
    (ended.starts after = [] ∧ ∀ run ∈ s.runs, run ∈ ended.runs) ∧
    (c.registry = [] ∧ c.timers = []) ∧
    (∀ o : PollOptions, Text.isBlank o.key = false → o.interval.isZero = false →
      c.register o = (c, .error .disposed)) ∧
    c.refresh = (c, 0) ∧ c.listen = (c, false) ∧
    ∀ id failed, (s.step (.finish id failed)).coordinator = c := by
  intro ended s c
  have hover : ended.Over := ((sound_initial config clock draws).run before).over_dispose h
  obtain ⟨hend, hstarts, hruns⟩ := hover.run after
  have hd : c.disposed = true := hend.disposed
  have hempty : c.registry = [] := hend.sound.tidy.ended hd
  refine ⟨⟨hstarts, hruns⟩, ⟨hempty, hend.sound.tidy.timers_nil hempty⟩, ?_, ?_, ?_, hend.finish⟩
  · exact fun o => register_disposed hd
  · simp [Coordinator.refresh, hd]
  · simp [Coordinator.listen, hd]

/-- One run goes on, one timer has gone off and waits for its turn, and another is armed. -/
def midway : List Event :=
  [.register { key := "a", interval := .ofSeconds 10 },
    .register { key := "b", interval := .ofSeconds 10 },
    .register { key := "c", interval := .ofSeconds 10 }, .fire 0, .elapse (.ofSeconds 1), .wake 1]

/-- The timers have their turns; the run asks for a refresh and for a registration, and ends. -/
def aftermath : List Event :=
  [.fire 1, .refresh, .register { key := "a", interval := .ofSeconds 10 },
    .resumeHealthAware true, .finish 0 false, .elapse (.ofSeconds 60), .fire 2]

theorem disposal_final_midway :
    ((((initial {} default ⟨[], []⟩).run midway).alive = true ∧
      ((initial {} default ⟨[], []⟩).run midway).runs = [⟨0, "a"⟩] ∧
      ((initial {} default ⟨[], []⟩).run midway).woken.length = 1 ∧
      ((initial {} default ⟨[], []⟩).run midway).coordinator.timers.length = 2)) ∧
    (((initial {} default ⟨[], []⟩).run midway).step .dispose).starts aftermath = [] ∧
    ((((initial {} default ⟨[], []⟩).run midway).step .dispose).run
      aftermath).coordinator.registry = [] := by
  have hbefore : ((initial {} default ⟨[], []⟩).run midway).alive = true ∧
      ((initial {} default ⟨[], []⟩).run midway).runs = [⟨0, "a"⟩] ∧
      ((initial {} default ⟨[], []⟩).run midway).woken.length = 1 ∧
      ((initial {} default ⟨[], []⟩).run midway).coordinator.timers.length = 2 := by decide +kernel
  have hfinal := disposal_final {} default ⟨[], []⟩ midway aftermath hbefore.1
  exact ⟨hbefore, hfinal.1.1, hfinal.2.1.1⟩

end System

end FeedPoller
