/-
The stages of a fetch.

Coordinator and store hear of a fetch in turn, and in between it belongs to neither.  `Effect` says
what an event comes to: it leaves the store and all fetches alone, or it takes one fetch from one
stage to the next, and what it writes to the store goes by that stage.  Which fetches there are is
a matter of the runs that the system knows of.  `Tended` says how the two go together, and is kept
by every event: a fetch is a run of a feed that is going on, and no run makes two of them.
-/
import FeedPoller.Proofs.Feed.History
import FeedPoller.Proofs.Poll.Overlap

namespace FeedPoller

/-! ### One stage further -/

namespace Fetch

variable {fetches : List Fetch} {f : Fetch} {run : Run} {stage : FetchStage}

/-- The fetches of other runs stay as they are. -/
theorem mem_move_of_ne (h : f.run ≠ run) : f ∈ move fetches run stage ↔ f ∈ fetches := by
  unfold move
  rw [List.mem_map]
  constructor
  · rintro ⟨g, hg, hf⟩
    by_cases hrun : g.run = run
    · rw [if_pos hrun] at hf
      exact absurd (hf ▸ hrun) h
    · rw [if_neg hrun] at hf
      exact hf ▸ hg
  · intro hf
    exact ⟨f, hf, if_neg h⟩

/-- A fetch of the run that has moved is at the stage that it has moved to. -/
theorem stage_of_mem_move (hf : f ∈ move fetches run stage) (h : f.run = run) :
    f.stage = stage := by
  obtain ⟨g, -, rfl⟩ := List.mem_map.mp hf
  by_cases hrun : g.run = run
  · rw [if_pos hrun]
  · rw [if_neg hrun] at h
    exact absurd h hrun

theorem mem_move_self (hf : f ∈ fetches) : ⟨f.run, stage⟩ ∈ move fetches f.run stage :=
  List.mem_map.mpr ⟨f, hf, if_pos rfl⟩

@[simp] theorem map_run_move : (move fetches run stage).map (·.run) = fetches.map (·.run) := by
  unfold move
  rw [List.map_map]
  refine List.map_congr_left fun f _ => ?_
  dsimp only [Function.comp]
  split <;> rfl

/-- The runs are the same ones as before. -/
theorem run_of_mem_move (hf : f ∈ move fetches run stage) : ∃ g ∈ fetches, g.run = f.run := by
  have hrun : f.run ∈ (move fetches run stage).map (·.run) := List.mem_map_of_mem hf
  rw [map_run_move] at hrun
  exact List.mem_map.mp hrun

/-- A run that goes on to its fetch is one more that fetches. -/
theorem mem_move_going {r : Run} (hf : f ∈ fetches) :
    ⟨r, .going⟩ ∈ move fetches f.run .going ↔ ⟨r, .going⟩ ∈ fetches ∨ r = f.run := by
  by_cases hr : r = f.run
  · rw [hr]
    exact iff_of_true (mem_move_self hf) (Or.inr rfl)
  · rw [mem_move_of_ne hr, or_iff_left hr]

/-- A run whose fetch is over fetches no longer. -/
theorem mem_move_ended {r : Run} {failed : Bool} :
    ⟨r, .going⟩ ∈ move fetches run (.ended failed) ↔ ⟨r, .going⟩ ∈ fetches ∧ r ≠ run := by
  by_cases hr : r = run
  · refine iff_of_false (fun hgoing => ?_) fun hgoing => hgoing.2 hr
    exact absurd (stage_of_mem_move hgoing hr) (by simp)
  · rw [mem_move_of_ne hr, and_iff_left hr]

end Fetch

/-! ### The runs that are going on -/

namespace System

variable {s : System}

theorem call_runs (f : Coordinator → Coordinator) : (s.call f).runs = s.runs := by
  unfold call
  split <;> rfl

theorem fire_runs (n : Nat) : (s.fire n).1.runs = s.runs ++ (s.fire n).2.toList := by
  unfold fire
  split
  · simp
  · split
    · simp
    · dsimp only
      split <;> simp

theorem finish_runs (id : Nat) (failed : Bool) :
    (s.finish id failed).runs = s.runs.eraseP (·.id == id) := by
  unfold finish
  split
  · rw [call_runs]
  · next hno =>
      refine (List.eraseP_of_forall_not fun run hrun => ?_).symm
      exact fun hid => hno (List.any_eq_true.mpr ⟨run, hrun, hid⟩)

/-- Only the turn of a timer and the end of a run change which runs are going on. -/
theorem step_runs {e : Event} (hfire : ∀ n, e ≠ .fire n)
    (hfinish : ∀ id failed, e ≠ .finish id failed) : (s.step e).runs = s.runs := by
  cases e with
  | fire n => exact absurd rfl (hfire n)
  | finish id failed => exact absurd rfl (hfinish id failed)
  | release | elapse => rfl
  | wake n =>
      show (s.wake n).runs = s.runs
      unfold wake
      split <;> rfl
  | _ => exact call_runs _

/-- A run goes on until it ends. -/
theorem Sound.mem_runs_step (hs : s.Sound) {e : Event} {run : Run} (hrun : run ∈ s.runs)
    (hend : ∀ failed, e ≠ .finish run.id failed) : run ∈ (s.step e).runs := by
  cases e with
  | fire n =>
      show run ∈ (s.fire n).1.runs
      rw [fire_runs]
      exact List.mem_append_left _ hrun
  | finish id failed =>
      have hne : run.id ≠ id := by
        intro hid
        exact hend failed (hid ▸ rfl)
      show run ∈ (s.finish id failed).runs
      rw [finish_runs]
      exact (mem_eraseP_of_nodup (fun run : Run => run.id) _ hs.books.distinct).mpr ⟨hrun, hne⟩
  | _ =>
      rw [step_runs (by simp) (by simp)]
      exact hrun

/-- The run that begins is none of those that are going on. -/
theorem Sound.fire_fresh (hs : s.Sound) {n : Nat} {run old : Run}
    (hfire : (s.fire n).2 = some run) (hold : old ∈ s.runs) : old ≠ run := by
  have hids : (((s.fire n).1.runs).map (·.id)).Nodup := (hs.step (.fire n)).books.distinct
  rw [fire_runs, hfire, List.map_append, List.nodup_append] at hids
  intro hsame
  exact hids.2.2 old.id (List.mem_map_of_mem hold) run.id (by simp) (hsame ▸ rfl)

end System

namespace FeedSystem

open FeedPoller.System

variable {s s' : FeedSystem} {e : FeedEvent}

/-! ### What an event comes to -/

theorem mem_of_fetch? {id : Nat} {f : Fetch} (h : s.fetch? id = some f) :
    f ∈ s.fetches ∧ f.run.id = id :=
  ⟨List.mem_of_find?_eq_some h, by simpa using List.find?_some h⟩

/-- A run whose fetch is pending tells the store that it begins. -/
theorem step_beginFetch {id : Nat} {run : Run} (h : s.fetch? id = some ⟨run, .pending⟩) :
    (s.step (.beginFetch id)).store = s.store.beginFetch run.key ∧
      (s.step (.beginFetch id)).fetches = Fetch.move s.fetches run .going := by
  simp [step, storeAfter, fetchesAfter, h]

/-- A run whose fetch is going on tells the store how it ends. -/
theorem step_endFetch {id : Nat} {run : Run} (h : s.fetch? id = some ⟨run, .going⟩)
    (o : FetchOutcome) :
    (s.step (.endFetch id o)).store = s.store.endFetch run.key o s.wall ∧
      (s.step (.endFetch id o)).fetches = Fetch.move s.fetches run (.ended o.isFailure) := by
  simp [step, storeAfter, fetchesAfter, h]

/-- What an event comes to for the store and the fetches. -/
inductive Effect (s : FeedSystem) : FeedEvent → FeedSystem → Prop where
  | none {e : FeedEvent} {s' : FeedSystem} (store : s'.store = s.store)
      (fetches : s'.fetches = s.fetches) : Effect s e s'
  | started {n : Nat} {run : Run} {s' : FeedSystem} (hfire : (s.system.fire n).2 = some run)
      (hfeed : run.id ∈ s.feeds) (store : s'.store = s.store)
      (fetches : s'.fetches = s.fetches ++ [⟨run, .pending⟩]) : Effect s (.poll (.fire n)) s'
  | begun {run : Run} {s' : FeedSystem} (hfetch : s.fetch? run.id = some ⟨run, .pending⟩)
      (store : s'.store = s.store.beginFetch run.key)
      (fetches : s'.fetches = Fetch.move s.fetches run .going) : Effect s (.beginFetch run.id) s'
  | ended {run : Run} {o : FetchOutcome} {s' : FeedSystem}
      (hfetch : s.fetch? run.id = some ⟨run, .going⟩)
      (store : s'.store = s.store.endFetch run.key o s.wall)
      (fetches : s'.fetches = Fetch.move s.fetches run (.ended o.isFailure)) :
      Effect s (.endFetch run.id o) s'
  | finished {run : Run} {failed : Bool} {s' : FeedSystem}
      (hfetch : s.fetch? run.id = some ⟨run, .ended failed⟩) (store : s'.store = s.store)
      (fetches : s'.fetches = s.fetches.filter (·.run ≠ run)) : Effect s (.finishFetch run.id) s'
  | written {call : StoreWrite} {s' : FeedSystem} (store : s'.store = s.store.write s.wall call)
      (fetches : s'.fetches = s.fetches) : Effect s (.write call) s'

theorem effect_fire (s : FeedSystem) (n : Nat) :
    Effect s (.poll (.fire n)) (s.step (.poll (.fire n))) := by
  cases hfire : (s.system.fire n).2 with
  | none => exact .none rfl (by simp [step, fetchesAfter, hfire])
  | some run =>
      by_cases hfeed : run.id ∈ s.feeds
      · exact .started hfire hfeed rfl (by simp [step, fetchesAfter, hfire, hfeed])
      · exact .none rfl (by simp [step, fetchesAfter, hfire, hfeed])

/-- Every event comes to one of these. -/
theorem effect (s : FeedSystem) (e : FeedEvent) : Effect s e (s.step e) := by
  cases e with
  | registerFeed o => exact .none rfl rfl
  | write call => exact .written rfl rfl
  | poll e =>
      cases e with
      | fire n => exact effect_fire s n
      | _ => exact .none rfl rfl
  | beginFetch id =>
      cases hf : s.fetch? id with
      | none => exact .none (by simp [step, storeAfter, hf]) (by simp [step, fetchesAfter, hf])
      | some f =>
          obtain ⟨run, stage⟩ := f
          obtain rfl : run.id = id := (mem_of_fetch? hf).2
          cases stage with
          | pending => exact .begun hf (step_beginFetch hf).1 (step_beginFetch hf).2
          | going | ended failed =>
              exact .none (by simp [step, storeAfter, hf]) (by simp [step, fetchesAfter, hf])
  | endFetch id o =>
      cases hf : s.fetch? id with
      | none => exact .none (by simp [step, storeAfter, hf]) (by simp [step, fetchesAfter, hf])
      | some f =>
          obtain ⟨run, stage⟩ := f
          obtain rfl : run.id = id := (mem_of_fetch? hf).2
          cases stage with
          | going => exact .ended hf (step_endFetch hf o).1 (step_endFetch hf o).2
          | pending | ended failed =>
              exact .none (by simp [step, storeAfter, hf]) (by simp [step, fetchesAfter, hf])
  | finishFetch id =>
      cases hf : s.fetch? id with
      | none => exact .none rfl (by simp [step, fetchesAfter, hf])
      | some f =>
          obtain ⟨run, stage⟩ := f
          obtain rfl : run.id = id := (mem_of_fetch? hf).2
          cases stage with
          | ended failed => exact .finished hf rfl (by simp [step, fetchesAfter, hf])
          | pending | going => exact .none rfl (by simp [step, fetchesAfter, hf])

/-- A fetch that there is after an event was there before, or its run begins with the event. -/
theorem run_of_mem_step {f : Fetch} (hf : f ∈ (s.step e).fetches) :
    (∃ g ∈ s.fetches, g.run = f.run) ∨
      ∃ n, e = .poll (.fire n) ∧ (s.system.fire n).2 = some f.run ∧ f.run.id ∈ s.feeds := by
  cases effect s e with
  | none store fetches | written store fetches => exact Or.inl ⟨f, fetches ▸ hf, rfl⟩
  | @started n run _ hfire hfeed store fetches =>
      rw [fetches] at hf
      rcases List.mem_append.mp hf with hf | hf
      · exact Or.inl ⟨f, hf, rfl⟩
      · obtain rfl := List.mem_singleton.mp hf
        exact Or.inr ⟨n, rfl, hfire, hfeed⟩
  | begun hfetch store fetches | ended hfetch store fetches =>
      exact Or.inl (Fetch.run_of_mem_move (fetches ▸ hf))
  | finished hfetch store fetches =>
      rw [fetches] at hf
      exact Or.inl ⟨f, (List.mem_filter.mp hf).1, rfl⟩

/-! ### Fetches and runs -/

/-- Every fetch is a run of a feed that is going on, and no run makes two. -/
structure Tended (s : FeedSystem) : Prop where
  running : ∀ f ∈ s.fetches, f.run ∈ s.system.runs
  made : ∀ f ∈ s.fetches, f.run.id ∈ s.feeds
  distinct : (s.fetches.map (·.run)).Nodup

theorem tended_initial (config : CoordinatorConfig) (clock : Clock) (draws : Draws) :
    (initial config clock draws).Tended :=
  ⟨fun _ hf => absurd hf List.not_mem_nil, fun _ hf => absurd hf List.not_mem_nil, List.nodup_nil⟩

/-- Of one run there is one fetch. -/
theorem Tended.eq (h : s.Tended) {f g : Fetch} (hf : f ∈ s.fetches) (hg : g ∈ s.fetches)
    (hrun : f.run = g.run) : f = g :=
  List.inj_on_of_nodup_map h.distinct hf hg hrun

/-- The fetch of a run is found by the registration that the run was begun for. -/
theorem Tended.fetch?_eq (h : s.Tended) (hs : s.system.Sound) {f : Fetch} (hf : f ∈ s.fetches) :
    s.fetch? f.run.id = some f := by
  cases hfind : s.fetch? f.run.id with
  | none => exact absurd (List.find?_eq_none.mp hfind f hf) (by simp)
  | some g =>
      obtain ⟨hg, hid⟩ := mem_of_fetch? hfind
      have hrun : g.run = f.run :=
        List.inj_on_of_nodup_map hs.books.distinct (h.running g hg) (h.running f hf) hid
      rw [h.eq hg hf hrun]

/-- Registrations that were made for feeds are remembered. -/
theorem mem_feeds_step {id : Nat} (h : id ∈ s.feeds) : id ∈ (s.step e).feeds := by
  cases e with
  | registerFeed o =>
      show id ∈ s.feedsAfter (.registerFeed o)
      unfold feedsAfter
      dsimp only
      split
      · split
        · exact List.mem_append_left _ h
        · exact h
      · exact h
  | _ => exact h

/-- The system hears of the end of a run that is no fetch, or of one whose fetch is over. -/
theorem noticed_finish {id : Nat} {failed : Bool} (h : s.noticed e = some (.finish id failed)) :
    id ∉ s.feeds ∨ (e = .finishFetch id ∧ ∃ run, s.fetch? id = some ⟨run, .ended failed⟩) := by
  cases e with
  | poll e =>
      cases e with
      | finish other how =>
          refine Or.inl fun hfeed => ?_
          by_cases hother : other ∈ s.feeds
          · simp [noticed, hother] at h
          · simp only [noticed, List.contains_eq_mem, hother, decide_false, Bool.false_eq_true,
              if_false, Option.some.injEq, Event.finish.injEq] at h
            exact hother (h.1 ▸ hfeed)
      | _ => simp [noticed] at h
  | finishFetch other =>
      refine Or.inr ?_
      unfold noticed at h
      dsimp only at h
      split at h
      · next run how hfetch =>
          obtain ⟨rfl, rfl⟩ := Event.finish.inj (Option.some.inj h)
          exact ⟨rfl, run, hfetch⟩
      · exact absurd h (by simp)
  | _ => simp [noticed] at h

/-- The run of a fetch goes on until the coordinator learns that it is over. -/
theorem Tended.running_step (h : s.Tended) (hs : s.system.Sound) {f : Fetch} (hf : f ∈ s.fetches)
    (hkept : ∀ failed, f.stage = .ended failed → e ≠ .finishFetch f.run.id) :
    f.run ∈ (s.step e).system.runs := by
  have hold := h.running f hf
  rw [step_system]
  cases hnoticed : s.noticed e with
  | none => exact hold
  | some event =>
      refine hs.mem_runs_step hold fun failed hend => ?_
      rw [hend] at hnoticed
      rcases noticed_finish hnoticed with hfeed | ⟨he, run, hfetch⟩
      · exact hfeed (h.made f hf)
      · rw [h.fetch?_eq hs hf] at hfetch
        exact hkept failed (congrArg Fetch.stage (Option.some.inj hfetch)) he

theorem sound_step (hs : s.system.Sound) : (s.step e).system.Sound := by
  rw [step_system]
  exact hs.run _

theorem Tended.step (h : s.Tended) (hs : s.system.Sound) : (s.step e).Tended := by
  refine ⟨fun f hf => ?_, fun f hf => ?_, ?_⟩
  · rcases run_of_mem_step hf with ⟨g, hg, hrun⟩ | ⟨n, rfl, hfire, hfeed⟩
    · rw [← hrun]
      refine h.running_step hs hg fun failed hended he => ?_
      -- A fetch that the coordinator learns of is one no longer.
      have hfetch : s.fetch? g.run.id = some ⟨g.run, .ended failed⟩ := by
        rw [h.fetch?_eq hs hg, ← hended]
      have hgone : (s.step e).fetches = s.fetches.filter (·.run ≠ g.run) := by
        rw [he]
        simp [FeedSystem.step, fetchesAfter, hfetch]
      rw [hgone] at hf
      exact absurd hrun.symm (by simpa using (List.mem_filter.mp hf).2)
    · show f.run ∈ (s.system.fire n).1.runs
      rw [fire_runs, hfire]
      exact List.mem_append_right _ List.mem_cons_self
  · rcases run_of_mem_step hf with ⟨g, hg, hrun⟩ | ⟨n, rfl, hfire, hfeed⟩
    · exact mem_feeds_step (hrun ▸ h.made g hg)
    · exact mem_feeds_step hfeed
  · cases effect s e with
    | none store fetches | written store fetches =>
        rw [fetches]
        exact h.distinct
    | @started n run _ hfire hfeed store fetches =>
        rw [fetches, List.map_append]
        refine List.nodup_append.mpr ⟨h.distinct, List.nodup_singleton _, ?_⟩
        intro old hold new hnew hsame
        obtain ⟨f, hf, rfl⟩ := List.mem_map.mp hold
        exact hs.fire_fresh hfire (h.running f hf) (hsame.trans (by simpa using hnew))
    | begun hfetch store fetches | ended hfetch store fetches =>
        rw [fetches, Fetch.map_run_move]
        exact h.distinct
    | finished hfetch store fetches =>
        rw [fetches]
        exact h.distinct.sublist (List.filter_sublist.map _)

theorem Tended.run (h : s.Tended) (hs : s.system.Sound) (events : List FeedEvent) :
    (s.run events).Tended := by
  induction events generalizing s with
  | nil => exact h
  | cons e rest ih => exact ih (h.step hs) (sound_step hs)

/-! ### Fetches that are going on -/

variable {key : String}

/-- A run has told the store that its fetch begins, and not yet how it ends. -/
def Going (s : FeedSystem) (run : Run) : Prop := ⟨run, .going⟩ ∈ s.fetches

/-- A run fetches a feed. -/
def FetchOf (s : FeedSystem) (key : String) (run : Run) : Prop := s.Going run ∧ run.key = key

instance (s : FeedSystem) (key : String) (run : Run) : Decidable (s.FetchOf key run) :=
  inferInstanceAs (Decidable (Fetch.mk run .going ∈ s.fetches ∧ run.key = key))

/-- A fetch of a feed is going on. -/
def Fetching (s : FeedSystem) (key : String) : Prop := ∃ run, s.FetchOf key run

instance (s : FeedSystem) (key : String) : Decidable (s.Fetching key) :=
  decidable_of_iff (∃ f ∈ s.fetches, s.FetchOf key f.run)
    ⟨fun ⟨f, _, hf⟩ => ⟨f.run, hf⟩, fun ⟨_, hrun⟩ => ⟨_, hrun.1, hrun⟩⟩

/-- What an event tells the store, and which fetches are going on when it has been told. -/
inductive Told (s : FeedSystem) : FeedEvent → FeedSystem → Prop where
  | nothing {e : FeedEvent} {s' : FeedSystem} (store : s'.store = s.store)
      (going : ∀ run, s'.Going run ↔ s.Going run) : Told s e s'
  | begun {new : Run} {s' : FeedSystem} (hnew : s.fetch? new.id = some ⟨new, .pending⟩)
      (store : s'.store = s.store.beginFetch new.key)
      (going : ∀ run, s'.Going run ↔ s.Going run ∨ run = new) : Told s (.beginFetch new.id) s'
  | ended {old : Run} {o : FetchOutcome} {s' : FeedSystem}
      (hold : s.fetch? old.id = some ⟨old, .going⟩)
      (store : s'.store = s.store.endFetch old.key o s.wall)
      (going : ∀ run, s'.Going run ↔ s.Going run ∧ run ≠ old) : Told s (.endFetch old.id o) s'
  | written {call : StoreWrite} {s' : FeedSystem} (store : s'.store = s.store.write s.wall call)
      (going : ∀ run, s'.Going run ↔ s.Going run) : Told s (.write call) s'

/-- A fetch is at one stage. -/
theorem Tended.not_going (h : s.Tended) {run : Run} {stage : FetchStage}
    (hfetch : s.fetch? run.id = some ⟨run, stage⟩) (hne : stage ≠ .going) : ¬ s.Going run := by
  intro hgoing
  have heq := h.eq (mem_of_fetch? hfetch).1 hgoing rfl
  exact hne (congrArg Fetch.stage heq)

/-- Every event tells the store one of these. -/
theorem Tended.told (h : s.Tended) (e : FeedEvent) : Told s e (s.step e) := by
  cases effect s e with
  | none store fetches => exact .nothing store fun run => by rw [Going, Going, fetches]
  | written store fetches => exact .written store fun run => by rw [Going, Going, fetches]
  | started hfire hfeed store fetches =>
      refine .nothing store fun run => ?_
      rw [Going, Going, fetches]
      simp
  | begun hfetch store fetches =>
      refine .begun hfetch store fun run => ?_
      rw [Going, Going, fetches]
      exact Fetch.mem_move_going (mem_of_fetch? hfetch).1
  | ended hfetch store fetches =>
      refine .ended hfetch store fun run => ?_
      rw [Going, Going, fetches]
      exact Fetch.mem_move_ended
  | @finished old failed _ hfetch store fetches =>
      refine .nothing store fun run => ?_
      have hended := h.not_going hfetch (by simp)
      rw [Going, Going, fetches, List.mem_filter]
      refine and_iff_left_of_imp fun hgoing => ?_
      have hne : run ≠ old := fun hrun => hended (hrun ▸ hgoing)
      simpa using hne

theorem fetching_congr (h : ∀ run, s'.FetchOf key run ↔ s.FetchOf key run) :
    s'.Fetching key ↔ s.Fetching key := by
  simp only [Fetching, h]

/-- Where the same runs go on, the same feeds are fetched. -/
theorem fetching_of_going (going : ∀ run, s'.Going run ↔ s.Going run) :
    s'.Fetching key ↔ s.Fetching key :=
  fetching_congr fun run => by rw [FetchOf, FetchOf, going]

/-- A fetch that begins is nothing to another feed. -/
theorem fetching_begun_of_ne {new : Run} (hkey : key ≠ new.key)
    (going : ∀ run, s'.Going run ↔ s.Going run ∨ run = new) :
    s'.Fetching key ↔ s.Fetching key := by
  refine fetching_congr fun run => ?_
  rw [FetchOf, FetchOf, going]
  constructor
  · rintro ⟨hrun | rfl, hrkey⟩
    · exact ⟨hrun, hrkey⟩
    · exact absurd hrkey.symm hkey
  · exact fun ⟨hrun, hrkey⟩ => ⟨Or.inl hrun, hrkey⟩

/-- A fetch that ends is nothing to another feed. -/
theorem fetching_ended_of_ne {old : Run} (hkey : key ≠ old.key)
    (going : ∀ run, s'.Going run ↔ s.Going run ∧ run ≠ old) :
    s'.Fetching key ↔ s.Fetching key := by
  refine fetching_congr fun run => ?_
  rw [FetchOf, FetchOf, going]
  constructor
  · exact fun ⟨⟨hrun, _⟩, hrkey⟩ => ⟨hrun, hrkey⟩
  · intro ⟨hrun, hrkey⟩
    have hne : run ≠ old := fun heq => hkey (heq ▸ hrkey.symm)
    exact ⟨⟨hrun, hne⟩, hrkey⟩

end FeedSystem

end FeedPoller
