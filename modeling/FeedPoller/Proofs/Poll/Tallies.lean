/-
What is counted of the runs that have ended.

A registration counts its runs and the failures among them, and keeps the time of the last one.
The history has all of it too: every run that ends was going on under the id it was begun for.
So the tally of a registration is compared with the endings of its history under its id.

Runs may end under a pause, after a replacement or when nobody is left to hear of them, and the
end of a run that was inherited is told to the heir.  What keeps the two sides together is
that the end of a run is told to one registration at most, and that this one counts it only if
the run was begun for it.  Ids are not given out again, so a newcomer has nothing to
count, and the histories of two registrations under one key are apart.
-/
import FeedPoller.Proofs.Poll.History
import FeedPoller.Simulation.Script

namespace FeedPoller

/-- The end of a run: when it was, the run, and whether it had failed. -/
structure Ending where
  time : DateTime
  run : Run
  failed : Bool
deriving DecidableEq, Repr

/-- How many runs have ended, how many of them had failed, and when the last one ended. -/
def tallied (endings : List Ending) : Nat × Nat × Option DateTime :=
  (endings.length, endings.countP (·.failed), endings.getLast?.map (·.time))

theorem tallied_append_singleton (endings : List Ending) (ending : Ending) :
    tallied (endings ++ [ending]) = (endings.length + 1,
      if ending.failed then endings.countP (·.failed) + 1 else endings.countP (·.failed),
      some ending.time) := by
  cases hf : ending.failed <;> simp [tallied, List.countP_append, hf]

namespace Registration

variable {r r' : Registration}

/-- What a registration has counted of its runs. -/
def tally (r : Registration) : Nat × Nat × Option DateTime :=
  (r.runs, r.failures, r.lastCompletedAt)

theorem tally_of_account (h : r.account = r'.account) : r.tally = r'.tally :=
  eq_of_account (·.tally) (fun _ => rfl) h

/-- A run of its own that ends is counted. -/
theorem tally_completed {endings : List Ending} {run : Run} (h : r.tally = tallied endings)
    (time : DateTime) (failed : Bool) :
    (r.completed time failed).tally = tallied (endings ++ [⟨time, run, failed⟩]) := by
  obtain ⟨hruns, hrest⟩ := Prod.mk.inj h
  obtain ⟨hfailures, -⟩ := Prod.mk.inj hrest
  rw [tallied_append_singleton, ← hruns, ← hfailures]
  rfl

end Registration

namespace System

open Coordinator

variable {s s' : System} {r : Registration} {e : Event} {id : Nat} {own : List Ending}

/-! ### The endings of a history -/

/-- The run that an event makes end. -/
def ended? (s : System) : Event → Option Ending
  | .finish id failed =>
      (s.runs.find? (·.id == id)).map fun run => ⟨s.coordinator.clock.wall, run, failed⟩
  | _ => none

/-- The ends of runs in a history. -/
def endings : System → List Event → List Ending
  | _, [] => []
  | s, e :: rest => (s.ended? e).toList ++ (s.step e).endings rest

/-- The ends of the runs that were begun for the registration with an id. -/
def endingsOf (s : System) (id : Nat) (events : List Event) : List Ending :=
  (s.endings events).filter (·.run.id == id)

/-- The end of a run of the registration with an id, if an event makes one. -/
def endedOf (s : System) (id : Nat) (e : Event) : List Ending :=
  (s.ended? e).toList.filter (·.run.id == id)

theorem endingsOf_cons (s : System) (id : Nat) (e : Event) (rest : List Event) :
    s.endingsOf id (e :: rest) = s.endedOf id e ++ (s.step e).endingsOf id rest := by
  rw [endingsOf, endings, List.filter_append]
  rfl

theorem endedOf_of_ne (he : ∀ id failed, e ≠ .finish id failed) (id : Nat) :
    s.endedOf id e = [] := by
  cases e with
  | finish id failed => exact absurd rfl (he id failed)
  | _ => rfl

/-- Of a run that goes on nothing is heard but its end. -/
theorem endedOf_finish {run : Run} (hrun : run ∈ s.runs) (hdistinct : (s.runs.map (·.id)).Nodup)
    (id : Nat) (failed : Bool) : s.endedOf id (.finish run.id failed) =
      if run.id = id then [⟨s.coordinator.clock.wall, run, failed⟩] else [] := by
  have hfound : s.runs.find? (·.id == run.id) = some run :=
    find?_of_nodup (fun run : Run => run.id) hdistinct hrun
  simp only [endedOf, ended?, hfound, Option.map_some, Option.toList_some, List.filter_cons,
    List.filter_nil, beq_iff_eq]

theorem endedOf_finish_of_none {n : Nat} (hnone : ∀ run ∈ s.runs, run.id ≠ n) (failed : Bool) :
    s.endedOf id (.finish n failed) = [] := by
  have hnot : s.runs.find? (·.id == n) = none :=
    List.find?_eq_none.mpr fun run hrun => by simpa using hnone run hrun
  simp [endedOf, ended?, hnot]

/-! ### Everything but the end of a run -/

/-- Nothing but the end of a run touches a tally, and a newcomer begins with an empty one. -/
theorem Outcome.tally_origin (ho : Outcome s e s') (hs : s.Sound)
    (he : ∀ id failed, e ≠ .finish id failed) {r' : Registration}
    (hr' : r' ∈ s'.coordinator.registry) :
    (∃ r ∈ s.coordinator.registry, r.id = r'.id ∧ r.tally = r'.tally) ∨
      (s.coordinator.nextId ≤ r'.id ∧ r'.tally = tallied []) := by
  cases ho with
  | nothing | elapse | wake | late => exact Or.inl ⟨r', hr', rfl, rfl⟩
  | moves hm =>
    obtain ⟨r, hr, ha⟩ := (hm.spec hs.tidy).2.2.origin hr'
    exact Or.inl ⟨r, hr, Registration.id_of_account ha, Registration.tally_of_account ha⟩
  | register _ _ hd =>
    obtain ⟨r, hr, ha⟩ := (register_spec hs.tidy hd).2.2.origin hr'
    rcases List.mem_append.mp hr with hr | hr
    · exact Or.inl ⟨r, (mem_vacate hs.tidy hr).1, Registration.id_of_account ha,
        Registration.tally_of_account ha⟩
    · rw [List.mem_singleton.mp hr] at ha
      refine Or.inr ⟨?_, (Registration.tally_of_account ha).symm⟩
      rw [← Registration.id_of_account ha, ← vacate_nextId]
      exact Nat.le_refl _
  | cleanup => exact Or.inl ⟨r', (mem_remove.mp hr').1, rfl, rfl⟩
  | dispose =>
    obtain ⟨-, e⟩ | ⟨-, -, hnil, -⟩ := dispose_cases hs.tidy
    · exact Or.inl ⟨r', e ▸ hr', rfl, rfl⟩
    · exact absurd (hnil ▸ hr') List.not_mem_nil
  | release => exact absurd hr' List.not_mem_nil
  | @skip t r _ hr =>
    rcases mem_put.mp hr' with ⟨hr', -⟩ | ⟨rfl, -⟩
    · exact Or.inl ⟨r', hr', rfl, rfl⟩
    · exact Or.inl ⟨r, hr, rfl, rfl⟩
  | @begin t r _ _ hr =>
    rcases mem_put.mp hr' with ⟨hr', -⟩ | ⟨rfl, -⟩
    · exact Or.inl ⟨r', hr', rfl, rfl⟩
    · exact Or.inl ⟨r, hr, rfl, rfl⟩
  | unnoticed | settle => exact absurd rfl (he _ _)

/-! ### The tally of a registration -/

/-- The registration with an id has counted some endings, and nothing ended before it was made. -/
structure Counted (s : System) (id : Nat) (own : List Ending) : Prop where
  tally : ∀ r ∈ s.coordinator.registry, r.id = id → r.tally = tallied own
  unborn : s.coordinator.nextId ≤ id → own = []

theorem Counted.step_aside (h : s.Counted id own) (hs : s.Sound)
    (he : ∀ id failed, e ≠ .finish id failed) : (s.step e).Counted id own where
  tally := by
    intro r' hr' hid'
    rcases (hs.outcome e).tally_origin hs he hr' with ⟨r, hr, hid, htally⟩ | ⟨hnew, hempty⟩
    · rw [← htally]
      exact h.tally r hr (hid.trans hid')
    · rw [h.unborn (hid' ▸ hnew)]
      exact hempty
  unborn := fun hle => h.unborn (Nat.le_trans ((hs.outcome e).nextId_le hs) hle)

/-- The end of a run is counted by the registration that it was begun for, and by no other. -/
theorem Counted.step_finish (h : s.Counted id own) (hs : s.Sound) (n : Nat) (failed : Bool) :
    (s.step (.finish n failed)).Counted id (own ++ s.endedOf id (.finish n failed)) where
  tally := by
    show ∀ r ∈ (s.finish n failed).coordinator.registry, _
    obtain ⟨hnone, e⟩ | ⟨run, hrun, rfl, hcases⟩ := hs.finish_cases n failed
    · rw [e, endedOf_finish_of_none hnone, List.append_nil]
      exact h.tally
    rw [endedOf_finish hrun hs.books.distinct]
    obtain ⟨hno, e⟩ | ⟨p, hp, hw, e⟩ := hcases <;> rw [e]
    · intro r hr hid
      have hne : run.id ≠ id := fun heq =>
        hno r hr ((hs.books.awaits_iff hr hrun).mpr (Or.inl (hid.trans heq.symm)))
      rw [if_neg hne, List.append_nil]
      exact h.tally r hr hid
    · obtain ⟨q, _, _, ha, -, e⟩ :=
        settle_shape s.coordinator (p.afterRun run s.coordinator.clock.wall failed)
      have hqid : q.id = p.id := (Registration.id_of_account ha).trans
        (p.afterRun_sameTimer run s.coordinator.clock.wall failed).id
      dsimp only
      rw [e]
      intro r hr hid
      rcases mem_put.mp hr with ⟨hr, hne⟩ | ⟨rfl, -⟩
      · -- Only one registration waits for the run, so it was not begun for this one.
        have hother : run.id ≠ id := by
          intro heq
          have hw' : r.awaitedRun = some run.id :=
            (hs.books.awaits_iff hr hrun).mpr (Or.inl (hid.trans heq.symm))
          have hname := (Registration.awaitedRun_eq_some.mp hw).2
          have hname' := (Registration.awaitedRun_eq_some.mp hw').2
          rw [hs.books.runId_unique hr hp (hname'.trans hname.symm)] at hne
          exact hne hqid.symm
        rw [if_neg hother, List.append_nil]
        exact h.tally r hr hid
      · rw [Registration.tally_of_account ha, Registration.afterRun]
        have hbefore := h.tally p hp (hqid.symm.trans hid)
        by_cases hown : p.id = run.id
        · rw [if_pos hown, if_pos (hown.symm.trans (hqid.symm.trans hid))]
          exact Registration.tally_completed hbefore _ _
        · rw [if_neg hown, if_neg fun heq => hown (hqid.symm.trans (hid.trans heq.symm)),
            List.append_nil]
          exact hbefore
  unborn := by
    intro hle
    have hle' : s.coordinator.nextId ≤ id :=
      Nat.le_trans ((hs.outcome (.finish n failed)).nextId_le hs) hle
    rw [h.unborn hle', List.nil_append]
    obtain ⟨hnone, -⟩ | ⟨run, hrun, rfl, -⟩ := hs.finish_cases n failed
    · exact endedOf_finish_of_none hnone failed
    · have hknown := hs.books.known run hrun
      rw [endedOf_finish hrun hs.books.distinct, if_neg (by omega)]

theorem Counted.step (h : s.Counted id own) (hs : s.Sound) (e : Event) :
    (s.step e).Counted id (own ++ s.endedOf id e) := by
  by_cases he : ∃ n failed, e = .finish n failed
  · obtain ⟨n, failed, rfl⟩ := he
    exact h.step_finish hs n failed
  · have hne : ∀ n failed, e ≠ .finish n failed := fun n failed heq => he ⟨n, failed, heq⟩
    rw [endedOf_of_ne hne, List.append_nil]
    exact h.step_aside hs hne

theorem Counted.run (h : s.Counted id own) (hs : s.Sound) (events : List Event) :
    (s.run events).Counted id (own ++ s.endingsOf id events) := by
  induction events generalizing s own with
  | nil =>
    have hnothing : s.endingsOf id [] = [] := rfl
    rw [hnothing, List.append_nil]
    exact h
  | cons e rest ih =>
    have hrest := ih (h.step hs e) (hs.step e)
    rwa [List.append_assoc, ← endingsOf_cons] at hrest

theorem counted_initial (config : CoordinatorConfig) (clock : Clock) (draws : Draws) (id : Nat) :
    (initial config clock draws).Counted id [] where
  tally := fun _ hr => absurd hr List.not_mem_nil
  unborn := fun _ => rfl

/--
**What a registration has counted is what its history says.**  Whatever has happened, its runs are
the ends of the runs that were begun for it, its failures those of them that had failed, and
the time that it keeps is that of the last one; it keeps none exactly if it has counted none.
However these runs ended, the failures are those that ended with an error or a panic of either
kind.
-/
theorem tallies_exact (config : CoordinatorConfig) (clock : Clock) (draws : Draws)
    (events : List Event) :
    let start := initial config clock draws
    ∀ r ∈ (start.run events).coordinator.registry,
      let own := start.endingsOf r.id events
      r.runs = own.length ∧ r.failures = own.countP (·.failed) ∧ r.failures ≤ r.runs ∧
      r.lastCompletedAt = own.getLast?.map (·.time) ∧ (r.lastCompletedAt = none ↔ r.runs = 0) ∧
      ∀ outcomes : List Simulation.Outcome,
        own.map (·.failed) = outcomes.map (·.isFailure) →
        r.failures = outcomes.countP fun o => o = .err ∨ o = .panic ∨ o = .panicAtOnce := by
  intro start r hr own
  have hcounted : (start.run events).Counted r.id own := by
    have hrun := (counted_initial config clock draws r.id).run
      (sound_initial config clock draws) events
    rwa [List.nil_append] at hrun
  obtain ⟨hruns, hrest⟩ := Prod.mk.inj (hcounted.tally r hr rfl)
  obtain ⟨hfailures, hlast⟩ := Prod.mk.inj hrest
  refine ⟨hruns, hfailures, ?_, hlast, ?_, fun outcomes hends => ?_⟩
  · rw [hruns, hfailures]
    exact List.countP_le_length
  · rw [hlast, hruns, Option.map_eq_none_iff, List.getLast?_eq_none_iff, List.length_eq_zero_iff]
  · have hbad : ∀ o : Simulation.Outcome,
        o.isFailure = decide (o = .err ∨ o = .panic ∨ o = .panicAtOnce) := by
      intro o
      cases o <;> rfl
    have hcount := congrArg (List.countP id) hends
    rw [List.countP_map, List.countP_map] at hcount
    rw [hfailures]
    refine hcount.trans (List.countP_congr fun o _ => ?_)
    rw [Function.comp_apply, id_eq, hbad o]

/--
A poll is replaced during a run that then fails.  A run of the new one panics while its owner has
paused it, and another one ends well.
-/
def reckoned : List Event :=
  [.register { key := "feed", interval := .ofSeconds 60 }, .fire 0,
    .register { key := "feed", interval := .ofSeconds 30 }, .finish 0 true, .fire 1,
    .pause "feed", .elapse (.ofSeconds 2), .finish 1 true, .resume "feed" false, .fire 2,
    .finish 1 false]

theorem tallies_exact_reckoned :
    let start := initial {} default ⟨[], []⟩
    (start.endingsOf 0 reckoned).map (·.failed) = [true] ∧
    (start.endingsOf 1 reckoned).map (·.failed) = [true, false] ∧
    ∃ r ∈ (start.run reckoned).coordinator.registry, r.id = 1 ∧ r.runs = 2 ∧ r.failures = 1 ∧
      r.lastCompletedAt = some ((default : Clock).wall.later (.ofSeconds 2)) := by
  have hends : ((initial {} default ⟨[], []⟩).endingsOf 1 reckoned).map (·.failed) =
      [true, false] := by decide +kernel
  have hlast : ((initial {} default ⟨[], []⟩).endingsOf 1 reckoned).getLast?.map (·.time) =
      some ((default : Clock).wall.later (.ofSeconds 2)) := by decide +kernel
  obtain ⟨r, hr, hid⟩ :
      ∃ r ∈ ((initial {} default ⟨[], []⟩).run reckoned).coordinator.registry, r.id = 1 := by
    decide +kernel
  obtain ⟨hruns, -, -, htime, -, hfailures⟩ := tallies_exact {} default ⟨[], []⟩ reckoned r hr
  rw [hid] at hruns htime hfailures
  refine ⟨by decide +kernel, hends, r, hr, hid, ?_, ?_, htime.trans hlast⟩
  · rw [hruns, ← List.length_map (·.failed), hends]
    rfl
  · exact hfailures [.panicAtOnce, .ok] hends

end System

end FeedPoller
