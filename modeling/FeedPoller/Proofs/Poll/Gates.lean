/-
Who opens and closes the gates.

Four operations are for the gates, and a test may force them.  Everything else that happens
goes by the gates and leaves them as they are, so whoever calls only those four knows
where the gates are.
-/
import FeedPoller.Proofs.Poll.Lifecycle

namespace FeedPoller

/-- An event that leaves the gates alone. -/
def Event.Aside : Event → Prop
  | .pauseHealthAware | .resumeHealthAware _ | .pauseAuthenticated | .resumeAuthenticated
  | .forceGates _ => False
  | _ => True

instance : ∀ e : Event, Decidable e.Aside
  | .pauseHealthAware | .resumeHealthAware _ | .pauseAuthenticated | .resumeAuthenticated
  | .forceGates _ => isFalse id
  | .register _ | .cleanup _ | .pause _ | .resume _ _ | .refresh | .listen | .dispose | .release
  | .elapse _ | .wake _ | .fire _ | .finish _ _ => isTrue trivial

namespace Coordinator

variable {c : Coordinator}

theorem suspendWhere_gates (applies : Registration → Bool) :
    (c.suspendWhere applies).gates = c.gates :=
  foldl_eq (f := suspend) (·.gates) (fun _ _ => rfl) _ c

theorem register_gates (o : PollOptions) : (c.register o).1.gates = c.gates := by
  obtain ⟨-, e⟩ | ⟨-, -, e⟩ := register_cases c o <;> rw [e]
  obtain ⟨registry, timers, hv⟩ := vacate_frame c o.key
  obtain ⟨-, e⟩ | ⟨-, e⟩ := append_cases (c.vacate o.key) o (c.awaitedFor o.key) <;> rw [e]
  · rw [hv]; rfl
  · rw [schedule_gates, hv]; rfl

theorem finishRun_gates (id : Nat) (failed : Bool) : (c.finishRun id failed).gates = c.gates := by
  have hsettle (q : Registration) : (c.settle q).gates = c.gates := by
    obtain ⟨_, _, _, -, -, e⟩ := settle_shape c q
    rw [e]; rfl
  obtain ⟨_, -, -, e⟩ | ⟨-, _, -, -, e⟩ | ⟨-, -, e⟩ := finishRun_cases c id failed <;> rw [e]
  · exact hsettle _
  · exact hsettle _

theorem beginRun_gates (t : Timer) : (c.beginRun t).1.gates = c.gates := by
  unfold beginRun
  dsimp only
  split
  · rfl
  · split
    · rfl
    · split
      · rfl
      · split <;> rfl

theorem cleanup_gates (handle : PollHandle) : (c.cleanup handle).gates = c.gates := by
  obtain ⟨-, e⟩ | ⟨r, -, -, e⟩ := cleanup_cases c handle <;> rw [e]
  rfl

theorem pause_gates (key : String) : (c.pause key).gates = c.gates := by
  unfold pause
  split <;> rfl

theorem resume_gates (key : String) (jitter : Bool) : (c.resume key jitter).gates = c.gates := by
  unfold resume
  split
  · rfl
  · split
    · rfl
    · split
      · rfl
      · exact resumeOne_gates

theorem refresh_gates : c.refresh.1.gates = c.gates := by
  unfold refresh
  split
  · rfl
  · exact foldl_eq (·.gates) (fun _ _ => schedule_gates) _ _

theorem listen_gates : c.listen.1.gates = c.gates := by
  unfold listen
  split <;> rfl

theorem dispose_gates : c.dispose.gates = c.gates := by
  unfold dispose
  split
  · rfl
  · exact foldl_eq (f := disarm) (·.gates) (fun _ _ => rfl) _ _

end Coordinator

namespace System

open Coordinator

variable {s : System} {e : Event}

theorem call_gates {f : Coordinator → Coordinator}
    (hf : (f s.coordinator).gates = s.coordinator.gates) :
    (s.call f).coordinator.gates = s.coordinator.gates := by
  unfold call
  split
  · exact hf
  · rfl

theorem fire_gates (n : Nat) : (s.fire n).1.coordinator.gates = s.coordinator.gates := by
  unfold fire
  split
  · rfl
  · split
    · rfl
    · next t _ =>
        have hbegin := beginRun_gates (c := s.coordinator) t
        dsimp only
        split <;> next hb => rw [hb] at hbegin; exact hbegin

theorem finish_gates (id : Nat) (failed : Bool) :
    (s.finish id failed).coordinator.gates = s.coordinator.gates := by
  unfold finish
  split
  · exact call_gates (finishRun_gates id failed)
  · rfl

/-- Every event that is not about the gates leaves them as they are. -/
theorem step_gates (he : e.Aside) : (s.step e).coordinator.gates = s.coordinator.gates := by
  cases e with
  | register o => exact call_gates (register_gates o)
  | cleanup handle => exact call_gates (cleanup_gates handle)
  | pause key => exact call_gates (pause_gates key)
  | resume key jitter => exact call_gates (resume_gates key jitter)
  | refresh => exact call_gates refresh_gates
  | listen => exact call_gates listen_gates
  | dispose => exact call_gates dispose_gates
  | release | elapse => rfl
  | wake n =>
      show (s.wake n).coordinator.gates = _
      unfold wake
      split <;> rfl
  | fire n => exact fire_gates n
  | finish id failed => exact finish_gates id failed
  | pauseHealthAware | resumeHealthAware | pauseAuthenticated | resumeAuthenticated | forceGates =>
      exact he.elim

end System

end FeedPoller
