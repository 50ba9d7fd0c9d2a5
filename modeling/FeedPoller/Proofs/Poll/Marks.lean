/-
The marks of runs going on, read off any history.

Three things follow from the books being kept.  A registration is marked exactly when the
run that it goes by is among those going on, and no run is among them twice.  A name that was
inherited is nobody's own.  And the end of a run is brought to the one registration that
waits for it, if there is one, and to no other: it counts there as a run of its own, or only
lifts the inherited mark.
-/
import FeedPoller.Proofs.Poll.History

namespace FeedPoller

/-- A name that occurs once at most occurs once exactly if it occurs at all. -/
theorem countP_eq_one_of_nodup {α : Type} (f : α → Nat) {l : List α} (h : (l.map f).Nodup)
    (n : Nat) : l.countP (f · == n) = 1 ↔ ∃ x ∈ l, f x = n := by
  have hcount : l.countP (f · == n) = (l.map f).count n := by
    rw [List.count_eq_countP, List.countP_map]
    rfl
  rw [hcount]
  constructor
  · intro hone
    have hmem : n ∈ l.map f := List.one_le_count_iff.mp (Nat.le_of_eq hone.symm)
    simpa using hmem
  · rintro ⟨x, hx, rfl⟩
    exact List.count_eq_one_of_mem h (List.mem_map_of_mem hx)

namespace System

open Coordinator

/--
**The marks of runs going on are exact.**  In every history each registration is marked as
long as exactly one run goes on under the name that it goes by; an inherited name comes with
the mark and is nobody's own; no two registrations go by one name; and the end of a run is
brought to the registration of its key that waits for it, or changes nothing.
-/
theorem marks_exact (config : CoordinatorConfig) (clock : Clock) (draws : Draws)
    (events : List Event) :
    let s := (initial config clock draws).run events
    let c := s.coordinator
    (s.runs.map (·.id)).Nodup ∧
    (∀ r ∈ c.registry,
      (r.inFlight = true ↔ s.runs.countP (·.id == r.superseded.getD r.id) = 1) ∧
      ∀ id, r.superseded = some id → r.inFlight = true ∧ ∀ q ∈ c.registry, q.id ≠ id) ∧
    (∀ r ∈ c.registry, ∀ q ∈ c.registry,
      r.superseded.getD r.id = q.superseded.getD q.id → r = q) ∧
    ∀ run ∈ s.runs, ∀ failed,
      let c' := (s.step (.finish run.id failed)).coordinator
      ((∀ r ∈ c.registry, r.awaitedRun ≠ some run.id) ∧ c' = c) ∨
      (∃ r ∈ c.registry, r.awaitedRun = some run.id ∧ r.key = run.key ∧
        (∀ q ∈ c.registry, q.awaitedRun = some run.id → q = r) ∧
        ∃ r', c'.registry = (c.put r').registry ∧
          r'.account = (r.afterRun run c.clock.wall failed).account) := by
  intro s c
  have h : s.Sound := sound_run config clock draws events
  refine ⟨h.books.distinct, fun r hr => ⟨?_, h.books.handed r hr⟩, ?_, ?_⟩
  · rw [h.books.marked r hr]
    exact (countP_eq_one_of_nodup (fun run : Run => run.id) h.books.distinct r.runId).symm
  · intro r hr q hq
    exact h.books.runId_unique hr hq
  · intro run hrun failed
    show ((∀ r ∈ c.registry, r.awaitedRun ≠ some run.id) ∧
      (s.finish run.id failed).coordinator = c) ∨ _
    obtain ⟨hno, -⟩ | ⟨other, hother, hid, ⟨hno, e⟩ | ⟨r, hr, hw, e⟩⟩ :=
      h.finish_cases run.id failed
    · exact absurd rfl (hno run hrun)
    · exact Or.inl ⟨hid ▸ hno, by rw [e]⟩
    · obtain rfl : other = run := List.inj_on_of_nodup_map h.books.distinct hother hrun hid
      obtain ⟨r', timers, armed, ha, -, hsettle⟩ :=
        settle_shape c (r.afterRun other c.clock.wall failed)
      refine Or.inr ⟨r, hr, hw, (h.books.keyed r hr other hother hw).symm, ?_, r', ?_, ha⟩
      · intro q hq hqw
        have hqname := (Registration.awaitedRun_eq_some.mp hqw).2
        have hrname := (Registration.awaitedRun_eq_some.mp hw).2
        exact h.books.runId_unique hq hr (hqname.trans hrname.symm)
      · show (s.finish other.id failed).coordinator.registry = _
        rw [e]
        show (c.settle _).registry = _
        rw [hsettle]

end System

end FeedPoller
