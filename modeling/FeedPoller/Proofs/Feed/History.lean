/-
Histories of a feed system.

A feed system is a system with a store beside it.  The system goes its own way: it notices some of
what happens and is as it would be if nothing else had happened, so whatever is known of the
histories of systems is known of it.
-/
import FeedPoller.Feed.System
import FeedPoller.Proofs.Poll.History

namespace FeedPoller.FeedSystem

/-- What the system notices of a history. -/
def history (s : FeedSystem) : List FeedEvent → List Event
  | [] => []
  | e :: rest => (s.noticed e).toList ++ (s.step e).history rest

theorem step_system (s : FeedSystem) (e : FeedEvent) :
    (s.step e).system = s.system.run (s.noticed e).toList := by
  unfold step
  cases s.noticed e <;> rfl

theorem run_cons (s : FeedSystem) (e : FeedEvent) (rest : List FeedEvent) :
    s.run (e :: rest) = (s.step e).run rest := rfl

theorem run_append (s : FeedSystem) (events more : List FeedEvent) :
    s.run (events ++ more) = (s.run events).run more := List.foldl_append

theorem history_append (s : FeedSystem) (events more : List FeedEvent) :
    s.history (events ++ more) = s.history events ++ (s.run events).history more := by
  induction events generalizing s with
  | nil => rfl
  | cons e rest ih => rw [List.cons_append, history, ih, history, List.append_assoc, run_cons]

/-- What every event of a kind keeps is kept by every history of such events. -/
theorem invariant_run {I : FeedSystem → Prop} {allowed : FeedEvent → Prop}
    (step : ∀ {s : FeedSystem} {e : FeedEvent}, I s → allowed e → I (s.step e)) {s : FeedSystem}
    (h : I s) {events : List FeedEvent} (he : ∀ e ∈ events, allowed e) : I (s.run events) := by
  induction events generalizing s with
  | nil => exact h
  | cons e rest ih => exact ih (step h (he e (by simp))) fun e' he' => he e' (by simp [he'])

/-- The system goes its own way, whatever becomes of the store. -/
theorem run_system (s : FeedSystem) (events : List FeedEvent) :
    (s.run events).system = s.system.run (s.history events) := by
  induction events generalizing s with
  | nil => rfl
  | cons e rest ih => rw [run_cons, ih, history, System.run_append, step_system]

end FeedPoller.FeedSystem
