/-
A feed is shown as busy while it is fetched.

The store and the scheduler keep separate books.  The flags of a feed are set when a fetch
begins and cleared when one ends; which fetches are going on is known to the system.  The two
agree in one direction as long as every fetch ends with data or an error: a panic leaves the
flags as they are, and nothing clears them until the next fetch of the feed ends.  They agree in
the other as long as fetches of one feed are apart, since the end of one clears the
flags for all of them.  Each direction is an induction over histories of its own, and neither
needs what the other one rests on.
-/
import FeedPoller.Proofs.Feed.Stages
import FeedPoller.Proofs.Fields

namespace FeedPoller

/-! ### The flags of a feed -/

namespace FeedState

theorem isBusy_beginFetch (f : FeedState) : f.beginFetch.isBusy = true := by
  unfold beginFetch isBusy
  split <;> simp

theorem isBusy_failFetch (f : FeedState) (error : String) :
    (f.failFetch error).isBusy = false := rfl

theorem isBusy_completeFetch (f : FeedState) (data : Json.Value) (time : DateTime) :
    (f.completeFetch data time).isBusy = false := rfl

end FeedState

namespace FeedStore

variable {s : FeedStore} {key other : String}

theorem get?_update_self (f : FeedState → FeedState) :
    (s.update key f).get? key = some (f ((s.get? key).getD {})) := Fields.find?_insert_self

theorem get?_update_of_ne (f : FeedState → FeedState) (h : other ≠ key) :
    (s.update key f).get? other = s.get? other := Fields.find?_insert_of_ne h

/-- Whether a feed is shown as busy. -/
def Busy (s : FeedStore) (key : String) : Prop := ∃ f, s.get? key = some f ∧ f.isBusy = true

instance (s : FeedStore) (key : String) : Decidable (s.Busy key) :=
  decidable_of_iff ((s.get? key).any (·.isBusy) = true) (by simp [Busy, Option.any_eq_true])

theorem busy_beginFetch (s : FeedStore) (key : String) : (s.beginFetch key).Busy key :=
  ⟨_, get?_update_self _, FeedState.isBusy_beginFetch _⟩

theorem busy_beginFetch_of_ne (h : other ≠ key) : (s.beginFetch key).Busy other ↔ s.Busy other := by
  simp only [Busy, beginFetch, get?_update_of_ne _ h]

/-- A fetch that does not panic leaves its feed idle. -/
theorem not_busy_endFetch {o : FetchOutcome} (h : o ≠ .panicked) (time : DateTime) :
    ¬ (s.endFetch key o time).Busy key := by
  rintro ⟨f, hf, hbusy⟩
  cases o with
  | data value =>
      obtain rfl := Option.some.inj ((get?_update_self _).symm.trans hf)
      exact absurd hbusy (by simp [FeedState.isBusy_completeFetch])
  | failed causes =>
      obtain rfl := Option.some.inj ((get?_update_self _).symm.trans hf)
      exact absurd hbusy (by simp [FeedState.isBusy_failFetch])
  | panicked => exact h rfl

theorem busy_endFetch_of_ne (h : other ≠ key) (o : FetchOutcome) (time : DateTime) :
    (s.endFetch key o time).Busy other ↔ s.Busy other := by
  cases o with
  | data value => simp only [Busy, endFetch, completeFetch, get?_update_of_ne _ h]
  | failed causes => simp only [Busy, endFetch, failFetch, get?_update_of_ne _ h]
  | panicked => rfl

end FeedStore

namespace FeedSystem

open FeedPoller.System

variable {s s' : FeedSystem} {e : FeedEvent}

/-! ### Busy feeds are fetched -/

/-- No feed is shown as busy that is not fetched. -/
def Honest (s : FeedSystem) : Prop := ∀ key, s.store.Busy key → s.Fetching key

theorem Told.honest (ht : Told s e s') (h : s.Honest) (hown : ∀ call, e ≠ .write call)
    (hcalm : ∀ id, e ≠ .endFetch id .panicked) : s'.Honest := by
  intro key hbusy
  cases ht with
  | nothing store going =>
      rw [store] at hbusy
      exact (fetching_of_going going).mpr (h key hbusy)
  | @begun new _ hnew store going =>
      by_cases hkey : key = new.key
      · exact ⟨new, (going new).mpr (Or.inr rfl), hkey.symm⟩
      · rw [store, FeedStore.busy_beginFetch_of_ne hkey] at hbusy
        exact (fetching_begun_of_ne hkey going).mpr (h key hbusy)
  | @ended old o _ hold store going =>
      have hpanic : o ≠ .panicked := fun ho => hcalm old.id (ho ▸ rfl)
      by_cases hkey : key = old.key
      · rw [store, hkey] at hbusy
        exact absurd hbusy (FeedStore.not_busy_endFetch hpanic _)
      · rw [store, FeedStore.busy_endFetch_of_ne hkey] at hbusy
        exact (fetching_ended_of_ne hkey going).mpr (h key hbusy)
  | written => exact absurd rfl (hown _)

/-! ### Feeds that are fetched are busy -/

/-- No fetch goes on without its feed being shown as busy. -/
def Open (s : FeedSystem) : Prop := ∀ key, s.Fetching key → s.store.Busy key

/-- Where runs of one key are apart, so are the fetches of one feed. -/
theorem Tended.eq_of_key (h : s.Tended) (hx : s.system.Exclusive) {run other : Run}
    (hrun : s.Going run) (hother : s.Going other) (hkey : run.key = other.key) : run = other :=
  List.inj_on_of_nodup_map hx.apart (h.running _ hrun) (h.running _ hother) hkey

theorem Told.shown (ht : Told s e s') (h : s.Open) (htended : s.Tended)
    (hx : s.system.Exclusive) (hown : ∀ call, e ≠ .write call) : s'.Open := by
  intro key hfetching
  cases ht with
  | nothing store going =>
      rw [store]
      exact h key ((fetching_of_going going).mp hfetching)
  | @begun new _ hnew store going =>
      rw [store]
      by_cases hnewkey : key = new.key
      · rw [hnewkey]
        exact FeedStore.busy_beginFetch _ _
      · rw [FeedStore.busy_beginFetch_of_ne hnewkey]
        exact h key ((fetching_begun_of_ne hnewkey going).mp hfetching)
  | @ended old o _ hold store going =>
      -- A fetch that still goes on is of another feed, since runs of one key are apart.
      have hoverkey : key ≠ old.key := by
        obtain ⟨run, hrun, hkey⟩ := hfetching
        obtain ⟨hrun, hne⟩ := (going run).mp hrun
        intro hover
        exact hne (htended.eq_of_key hx hrun (mem_of_fetch? hold).1 (hkey.trans hover))
      rw [store, FeedStore.busy_endFetch_of_ne hoverkey]
      exact h key ((fetching_ended_of_ne hoverkey going).mp hfetching)
  | written => exact absurd rfl (hown _)

/-! ### Every history -/

theorem honest_run {events : List FeedEvent} (h : s.Honest) (ht : s.Tended) (hs : s.system.Sound)
    (hown : ∀ e ∈ events, ∀ call, e ≠ .write call)
    (hcalm : ∀ e ∈ events, ∀ id, e ≠ .endFetch id .panicked) : (s.run events).Honest := by
  induction events generalizing s with
  | nil => exact h
  | cons e rest ih =>
      have hnext : (s.step e).Honest := (ht.told e).honest h (hown e (by simp)) (hcalm e (by simp))
      exact ih hnext (ht.step hs) (sound_step hs) (fun e he => hown e (by simp [he]))
        fun e he => hcalm e (by simp [he])

theorem open_run {events : List FeedEvent} (h : s.Open) (ht : s.Tended) (hs : s.system.Sound)
    (hx : s.system.Exclusive) (hown : ∀ e ∈ events, ∀ call, e ≠ .write call)
    (hheed : Lawful Heedful s.system (s.history events)) : (s.run events).Open := by
  induction events generalizing s with
  | nil => exact h
  | cons e rest ih =>
      obtain ⟨hfirst, hlater⟩ := lawful_append.mp hheed
      rw [← step_system] at hlater
      have hnext : Sound (s.step e).system ∧ Exclusive (s.step e).system := by
        rw [step_system]
        exact hfirst.run (I := fun s => Sound s ∧ Exclusive s)
          (fun s e ⟨hs, hx⟩ hheed => ⟨hs.step e, (hs.outcome e).exclusive hs hx hheed⟩) ⟨hs, hx⟩
      have hopen : (s.step e).Open := (ht.told e).shown h ht hx (hown e (by simp))
      exact ih hopen (ht.step hs) hnext.1 hnext.2 (fun e he => hown e (by simp [he])) hlater

/--
**A feed is busy exactly while it is fetched**, as long as nobody else writes to the store.  A feed
that is shown as busy is being fetched if no fetch has panicked; one that is being fetched is
shown as busy if no registration was made while an orphaned run of its key was going on.
-/
theorem busy_iff_fetching (config : CoordinatorConfig) (clock : Clock) (draws : Draws)
    (events : List FeedEvent) (hown : ∀ e ∈ events, ∀ call, e ≠ .write call) :
    let start := initial config clock draws
    let s := start.run events
    ((∀ e ∈ events, ∀ id, e ≠ .endFetch id .panicked) →
      ∀ key, s.store.Busy key → s.Fetching key) ∧
    (Lawful Heedful start.system (start.history events) →
      ∀ key, s.Fetching key → s.store.Busy key) := by
  intro start s
  have hs : start.system.Sound := sound_initial config clock draws
  have ht : start.Tended := tended_initial config clock draws
  refine ⟨fun hcalm => honest_run ?_ ht hs hown hcalm, fun hheed => open_run ?_ ht hs ?_ hown hheed⟩
  · rintro key ⟨f, hf, -⟩
    exact absurd hf (by simp [start, initial, FeedStore.get?, Fields.find?])
  · rintro key ⟨run, hrun, -⟩
    exact absurd hrun List.not_mem_nil
  · exact exclusive_initial config clock draws

/-- A fetch that fails, one that brings data, and one that is replaced while it goes on. -/
def replaced : List FeedEvent :=
  [.registerFeed { key := "a", interval := .ofSeconds 10 },
    .registerFeed { key := "b", interval := .ofSeconds 10 },
    .poll (.fire 0), .beginFetch 0, .endFetch 0 (.data .null), .poll (.elapse (.ofSeconds 10)),
    .finishFetch 0, .poll (.fire 1), .beginFetch 1, .endFetch 1 (.failed ["unreachable"]),
    .poll (.elapse (.ofSeconds 10)), .poll (.fire 2), .finishFetch 1,
    .registerFeed { key := "a", interval := .ofSeconds 10 }, .beginFetch 0]

theorem busy_iff_fetching_replaced :
    ((initial {} default ⟨[], []⟩).run replaced).store.Busy "a" ∧
    ((initial {} default ⟨[], []⟩).run replaced).Fetching "a" ∧
    (∀ key, ((initial {} default ⟨[], []⟩).run replaced).store.Busy key →
      ((initial {} default ⟨[], []⟩).run replaced).Fetching key) ∧
    (∀ key, ((initial {} default ⟨[], []⟩).run replaced).Fetching key →
      ((initial {} default ⟨[], []⟩).run replaced).store.Busy key) := by
  have hown : ∀ e ∈ replaced, ∀ call, e ≠ .write call := by simp [replaced]
  have hcalm : ∀ e ∈ replaced, ∀ id, e ≠ .endFetch id .panicked := by simp [replaced]
  have hheed : Lawful Heedful (initial {} default ⟨[], []⟩).system
      ((initial {} default ⟨[], []⟩).history replaced) := by decide +kernel
  have hfetching : ((initial {} default ⟨[], []⟩).run replaced).Fetching "a" := by decide +kernel
  have h := busy_iff_fetching {} default ⟨[], []⟩ replaced hown
  exact ⟨h.2 hheed "a" hfetching, hfetching, h.1 hcalm, h.2 hheed⟩

/-- A panic leaves its feed shown as busy with nothing going on. -/
theorem busy_after_panic :
    ((initial {} default ⟨[], []⟩).run [.registerFeed { key := "a", interval := .ofSeconds 10 },
      .poll (.fire 0), .beginFetch 0, .endFetch 0 .panicked, .finishFetch 0]).store.Busy "a" ∧
    ¬ ((initial {} default ⟨[], []⟩).run [.registerFeed { key := "a", interval := .ofSeconds 10 },
      .poll (.fire 0), .beginFetch 0, .endFetch 0 .panicked, .finishFetch 0]).Fetching "a" := by
  decide +kernel

/-- The end of an orphaned fetch hides that the next one of its feed is going on. -/
theorem idle_during_fetch :
    ((initial {} default ⟨[], []⟩).run [.registerFeed { key := "a", interval := .ofSeconds 10 },
      .poll (.fire 0), .beginFetch 0, .poll (.cleanup ⟨"a", 0⟩),
      .registerFeed { key := "a", interval := .ofSeconds 10 }, .poll (.fire 1), .beginFetch 1,
      .endFetch 0 (.data .null)]).Fetching "a" ∧
    ¬ ((initial {} default ⟨[], []⟩).run [.registerFeed { key := "a", interval := .ofSeconds 10 },
      .poll (.fire 0), .beginFetch 0, .poll (.cleanup ⟨"a", 0⟩),
      .registerFeed { key := "a", interval := .ofSeconds 10 }, .poll (.fire 1), .beginFetch 1,
      .endFetch 0 (.data .null)]).store.Busy "a" := by
  decide +kernel

end FeedSystem

end FeedPoller
