/-
What is shown of a feed sums up how its fetches have ended.

The store forgets all but a few things about the past: the last data, its date, and the last
error.  `summary` says what these are for a list of ends, without the store, and one fetch takes
the store from one summary to the next.  In a feed system whatever happens to other feeds, and
to polls that are no feeds, goes on between the beginning of a fetch and its end.  An event is
then one of three things to a feed: it is none of its business, it begins a fetch of it, or it
ends one.  Only fetches that are apart make it so: the end of one of two would show the feed as idle
while the other goes on.
-/
import FeedPoller.Proofs.Feed.Removal
import Mathlib.Data.List.Infix

namespace FeedPoller

/-! ### The summary -/

namespace FetchOutcome

/-- What the good ends among some have brought, and when. -/
def successes (ends : List (DateTime × FetchOutcome)) : List (DateTime × Json.Value) :=
  ends.filterMap fun (time, o) =>
    match o with
    | .data value => some (time, value)
    | _ => none

/-- The error of the last of some ends, if that is a failure. -/
def lastError (ends : List (DateTime × FetchOutcome)) : Option String :=
  match ends.getLast? with
  | some (_, .failed causes) => some (errorText causes)
  | _ => none

variable {ends : List (DateTime × FetchOutcome)} {time : DateTime}

theorem successes_append_data (value : Json.Value) :
    successes (ends ++ [(time, .data value)]) = successes ends ++ [(time, value)] := by
  simp [successes]

theorem successes_append_failed (causes : List String) :
    successes (ends ++ [(time, .failed causes)]) = successes ends := by
  simp [successes]

end FetchOutcome

namespace FeedState

open FetchOutcome

variable {ends : List (DateTime × FetchOutcome)} {time : DateTime} {fetching : Bool}

/-- What is shown of a feed whose fetches have ended in some ways, while another one is going on
or not: the last data and its date, the error of the last fetch, and that it is busy. -/
def summary (ends : List (DateTime × FetchOutcome)) (fetching : Bool) : FeedState where
  data := (successes ends).getLast?.map (·.2)
  loading := fetching && (successes ends).isEmpty
  isRefreshing := fetching && !(successes ends).isEmpty
  error := lastError ends
  updatedAt := (successes ends).getLast?.map (·.1)

/-- What the store has of such a feed: nothing before its first fetch begins. -/
def summary? (ends : List (DateTime × FetchOutcome)) (fetching : Bool) : Option FeedState :=
  if ends = [] ∧ fetching = false then none else some (summary ends fetching)

theorem getD_summary? : (summary? ends fetching).getD {} = summary ends fetching := by
  unfold summary?
  split
  · next h =>
      obtain ⟨rfl, rfl⟩ := h
      rfl
  · rfl

theorem hasData_summary : (summary ends fetching).hasData = !(successes ends).isEmpty := by
  unfold hasData summary
  cases successes ends using List.reverseRecOn with
  | nil => rfl
  | append_singleton rest last => simp

theorem beginFetch_summary : (summary ends false).beginFetch = summary ends true := by
  unfold beginFetch
  rw [hasData_summary]
  cases h : (successes ends).isEmpty <;> simp [summary, h]

theorem completeFetch_summary (value : Json.Value) :
    (summary ends fetching).completeFetch value time
      = summary (ends ++ [(time, .data value)]) false := by
  simp [summary, completeFetch, successes_append_data, lastError]

theorem failFetch_summary (causes : List String) (time : DateTime) :
    (summary ends fetching).failFetch (errorText causes)
      = summary (ends ++ [(time, .failed causes)]) false := by
  simp [summary, failFetch, successes_append_failed, lastError]

end FeedState

namespace FeedStore

open FeedState

variable {s : FeedStore} {key : String} {ends : List (DateTime × FetchOutcome)} {fetching : Bool}

theorem get?_beginFetch_summary (h : s.get? key = summary? ends false) :
    (s.beginFetch key).get? key = summary? ends true := by
  rw [beginFetch, get?_update_self, h, getD_summary?, beginFetch_summary]
  simp [summary?]

theorem get?_endFetch_summary (h : s.get? key = summary? ends fetching) {o : FetchOutcome}
    (ho : o ≠ .panicked) (time : DateTime) :
    (s.endFetch key o time).get? key = summary? (ends ++ [(time, o)]) false := by
  cases o with
  | data value =>
      rw [endFetch, completeFetch, get?_update_self, h, getD_summary?, completeFetch_summary]
      simp [summary?]
  | failed causes =>
      rw [endFetch, failFetch, get?_update_self, h, getD_summary?, failFetch_summary causes time]
      simp [summary?]
  | panicked => exact absurd rfl ho

/-- The store after fetches of a feed that are made one after the other. -/
def fetched (s : FeedStore) (key : String) (ends : List (DateTime × FetchOutcome)) : FeedStore :=
  ends.foldl (fun s (time, o) => (s.beginFetch key).endFetch key o time) s

theorem fetched_append_singleton (s : FeedStore) (key : String)
    (ends : List (DateTime × FetchOutcome)) (time : DateTime) (o : FetchOutcome) :
    s.fetched key (ends ++ [(time, o)])
      = ((s.fetched key ends).beginFetch key).endFetch key o time := by
  simp [fetched]

theorem get?_fetched_summary (h : s.get? key = none) (hcalm : ∀ time, (time, .panicked) ∉ ends) :
    (s.fetched key ends).get? key = summary? ends false := by
  induction ends using List.reverseRecOn with
  | nil => exact h
  | append_singleton rest last ih =>
      have hrest := ih fun time hmem => hcalm time (List.mem_append_left _ hmem)
      have hlast : last.2 ≠ .panicked := fun ho => hcalm last.1 (by simp [← ho])
      rw [fetched_append_singleton]
      exact get?_endFetch_summary (get?_beginFetch_summary hrest) hlast last.1

/-- Fetches of a feed are nothing to the others. -/
theorem get?_fetched_of_ne {other : String} (hne : other ≠ key) :
    (s.fetched key ends).get? other = s.get? other := by
  induction ends using List.reverseRecOn with
  | nil => rfl
  | append_singleton rest last ih =>
      rw [fetched_append_singleton, get?_endFetch_of_ne hne, ← ih]
      exact get?_update_of_ne _ hne

end FeedStore

/-! ### The fetches of one feed -/

namespace FeedSystem

open FeedPoller.System FeedState

variable {s s' : FeedSystem} {e : FeedEvent} {key : String}

/-- No two fetches of a feed are going on. -/
def Solitary (s : FeedSystem) (key : String) : Prop :=
  ∀ f ∈ s.fetches, ∀ g ∈ s.fetches, s.FetchOf key f.run → s.FetchOf key g.run → f.run = g.run

instance (s : FeedSystem) (key : String) : Decidable (s.Solitary key) :=
  inferInstanceAs (Decidable (∀ f ∈ s.fetches, ∀ g ∈ s.fetches,
    s.FetchOf key f.run → s.FetchOf key g.run → f.run = g.run))

theorem Solitary.eq (h : s.Solitary key) {run other : Run} (hrun : s.FetchOf key run)
    (hother : s.FetchOf key other) : run = other := h _ hrun.1 _ hother.1 hrun hother

/-- The run that was begun for a registration is fetching a feed. -/
def FetchedFor (s : FeedSystem) (key : String) (id : Nat) : Prop :=
  ∃ run, s.fetch? id = some ⟨run, .going⟩ ∧ run.key = key

instance (s : FeedSystem) (key : String) (id : Nat) : Decidable (s.FetchedFor key id) :=
  decidable_of_iff ((s.fetch? id).any (fun f => f.stage = .going ∧ f.run.key = key) = true) <| by
    rw [Option.any_eq_true]
    constructor
    · rintro ⟨⟨run, stage⟩, hfetch, hgoing⟩
      obtain ⟨rfl, hkey⟩ := of_decide_eq_true hgoing
      exact ⟨run, hfetch, hkey⟩
    · rintro ⟨run, hfetch, hkey⟩
      exact ⟨_, hfetch, decide_eq_true ⟨rfl, hkey⟩⟩

/-- How a fetch of a feed ends with an event, and when, if one does. -/
def ending? (s : FeedSystem) (key : String) : FeedEvent → Option (DateTime × FetchOutcome)
  | .endFetch id o => if s.FetchedFor key id then some (s.wall, o) else none
  | _ => none

/-- How the fetches of a feed end in the course of a history, and when. -/
def endings (s : FeedSystem) (key : String) : List FeedEvent → List (DateTime × FetchOutcome)
  | [] => []
  | e :: rest => (s.ending? key e).toList ++ (s.step e).endings key rest

/-- A fetch of a feed begins with an event, or ends with it. -/
def Concerns (s : FeedSystem) (key : String) : FeedEvent → Prop
  | .beginFetch id => ∃ run, s.fetch? id = some ⟨run, .pending⟩ ∧ run.key = key
  | .endFetch id _ => s.FetchedFor key id
  | _ => False

/-! ### One event -/

/-- What an event is to a feed whose fetches are apart. -/
inductive Turn (s : FeedSystem) (key : String) (e : FeedEvent) (s' : FeedSystem) : Prop where
  | elsewhere (fetching : s'.Fetching key ↔ s.Fetching key)
      (entry : s'.store.get? key = s.store.get? key) (ending : s.ending? key e = none)
  | begun (before : ¬ s.Fetching key) (after : s'.Fetching key)
      (store : s'.store = s.store.beginFetch key) (ending : s.ending? key e = none)
  | ended {o : FetchOutcome} (after : ¬ s'.Fetching key)
      (store : s'.store = s.store.endFetch key o s.wall)
      (ending : s.ending? key e = some (s.wall, o))

/-- What becomes of a feed with an event that ends no fetch of it. -/
theorem turn_of_no_ending (ht : s.Tended) (halone : (s.step e).Solitary key)
    (hown : ∀ call, e = .write call → call.key ≠ key) (hno : s.ending? key e = none) :
    Turn s key e (s.step e) := by
  cases ht.told e with
  | nothing store going =>
      exact .elsewhere (fetching_of_going going) (by rw [store]) hno
  | @begun new _ hnew store going =>
      by_cases hkey : key = new.key
      · have hfetch : (s.step (.beginFetch new.id)).FetchOf key new :=
          ⟨(going new).mpr (Or.inr rfl), hkey.symm⟩
        refine .begun ?_ ⟨new, hfetch⟩ (by rw [store, hkey]) hno
        -- Another fetch would still go on, as the same run as the one that has just begun.
        rintro ⟨run, hrun, hrkey⟩
        have hstill : (s.step (.beginFetch new.id)).FetchOf key run :=
          ⟨(going run).mpr (Or.inl hrun), hrkey⟩
        have hsame : run = new := halone.eq hstill hfetch
        exact ht.not_going hnew (by simp) (hsame ▸ hrun)
      · refine .elsewhere (fetching_begun_of_ne hkey going) ?_ hno
        rw [store]
        exact FeedStore.get?_update_of_ne _ hkey
  | @ended old o _ hold store going =>
      have hkey : key ≠ old.key := by
        intro hkey
        have hfor : s.FetchedFor key old.id := ⟨old, hold, hkey.symm⟩
        exact absurd hno (by simp [ending?, hfor])
      refine .elsewhere (fetching_ended_of_ne hkey going) ?_ hno
      rw [store]
      exact FeedStore.get?_endFetch_of_ne hkey _
  | written store going =>
      refine .elsewhere (fetching_of_going going) ?_ hno
      rw [store]
      exact FeedStore.get?_write_of_ne (hown _ rfl).symm _

/-- What becomes of a feed when the only fetch of it that is going on ends. -/
theorem turn_of_ending (halone : s.Solitary key) {ending : DateTime × FetchOutcome}
    (hending : s.ending? key e = some ending) : Turn s key e (s.step e) := by
  cases e with
  | endFetch id o =>
      have hfor : s.FetchedFor key id := by
        by_contra hno
        simp [ending?, hno] at hending
      obtain ⟨run, hfetch, rfl⟩ := hfor
      obtain ⟨hstore, hfetches⟩ := step_endFetch hfetch o
      refine .ended ?_ hstore (if_pos ⟨run, hfetch, rfl⟩)
      rintro ⟨other, hother, hkey⟩
      rw [Going, hfetches, Fetch.mem_move_ended] at hother
      exact hother.2 (halone.eq ⟨hother.1, hkey⟩ ⟨(mem_of_fetch? hfetch).1, rfl⟩)
  | _ => exact absurd hending (by simp [ending?])

/-- An event that begins or ends a fetch of a feed is nothing to the others. -/
theorem Concerns.get?_step (h : s.Concerns key e) {other : String} (hne : other ≠ key) :
    (s.step e).store.get? other = s.store.get? other := by
  cases e with
  | beginFetch id =>
      obtain ⟨run, hfetch, rfl⟩ := h
      rw [(step_beginFetch hfetch).1]
      exact FeedStore.get?_update_of_ne _ hne
  | endFetch id o =>
      obtain ⟨run, hfetch, rfl⟩ := h
      rw [(step_endFetch hfetch o).1]
      exact FeedStore.get?_endFetch_of_ne hne _
  | _ => exact h.elim

/-! ### Every history -/

/-- The store has a feed as it should after some ends of its fetches. -/
def Shows (s : FeedSystem) (key : String) (ends : List (DateTime × FetchOutcome)) : Prop :=
  s.store.get? key = summary? ends (decide (s.Fetching key))

theorem Shows.step {ends : List (DateTime × FetchOutcome)} (h : s.Shows key ends)
    (ht : Turn s key e s') (hcalm : ∀ time, s.ending? key e ≠ some (time, .panicked)) :
    s'.Shows key (ends ++ (s.ending? key e).toList) := by
  unfold Shows at h ⊢
  cases ht with
  | elsewhere fetching entry ending =>
      rw [entry, h, ending]
      simp [fetching]
  | begun before after store ending =>
      rw [ending, store]
      simp only [before, after, decide_false, decide_true] at h ⊢
      simpa using FeedStore.get?_beginFetch_summary h
  | @ended o after store ending =>
      rw [ending, store]
      simp only [after, decide_false]
      exact FeedStore.get?_endFetch_summary h (fun ho => hcalm s.wall (ho ▸ ending)) s.wall

theorem shows_run {events : List FeedEvent} {ends : List (DateTime × FetchOutcome)}
    (h : s.Shows key ends) (ht : s.Tended) (hs : s.system.Sound)
    (hown : ∀ call, FeedEvent.write call ∈ events → call.key ≠ key)
    (hcalm : ∀ time, (time, .panicked) ∉ s.endings key events)
    (halone : ∀ done, done <+: events → (s.run done).Solitary key) :
    (s.run events).Shows key (ends ++ s.endings key events) := by
  induction events generalizing s ends with
  | nil => simpa [endings, FeedSystem.run] using h
  | cons e rest ih =>
      have hlater : ∀ done, done <+: rest → ((s.step e).run done).Solitary key :=
        fun done hdone => halone (e :: done) ((List.prefix_cons_inj e).mpr hdone)
      have hfirst : ∀ call, e = .write call → call.key ≠ key :=
        fun call he => hown call (he ▸ List.mem_cons_self)
      have hturn : Turn s key e (s.step e) := by
        cases hending : s.ending? key e with
        | none => exact turn_of_no_ending ht (hlater [] List.nil_prefix) hfirst hending
        | some ending => exact turn_of_ending (halone [] List.nil_prefix) hending
      have hshows := h.step hturn fun time hpanic =>
        hcalm time (by simp [endings, hpanic])
      have hrest := ih hshows (ht.step hs) (sound_step hs)
        (fun call hcall => hown call (List.mem_cons_of_mem _ hcall))
        (fun time hmem => hcalm time (List.mem_append_right _ hmem)) hlater
      rw [List.append_assoc] at hrest
      exact hrest

/--
**What is shown of a feed sums up how its fetches have ended**, as long as they are apart and none
of them panics.  From the first of them on the store has the data and the date of the last one that
brought some, the error of the last one if that one failed, and a flag exactly while the next
one is going on, which is the one for the first data as long as there is none; it has the
other feeds as before.  In a feed system, where others are fetched meanwhile, the store says
this of every feed that nobody else writes for, and nothing of a feed before its first fetch begins;
no event that begins or ends a fetch of the feed changes what it has of another one.
-/
theorem feed_sums_up (key : String) :
    (∀ (s : FeedStore) (ends : List (DateTime × FetchOutcome)), s.get? key = none →
      (∀ time, (time, .panicked) ∉ ends) →
        (s.fetched key ends).get? key = summary? ends false ∧
        ((s.fetched key ends).beginFetch key).get? key = some (summary ends true) ∧
        ∀ other, other ≠ key → (s.fetched key ends).get? other = s.get? other ∧
          ((s.fetched key ends).beginFetch key).get? other = s.get? other) ∧
    ∀ (config : CoordinatorConfig) (clock : Clock) (draws : Draws) (events : List FeedEvent),
      let start := initial config clock draws
      let ends := start.endings key events
      (∀ call, FeedEvent.write call ∈ events → call.key ≠ key) →
      (∀ time, (time, .panicked) ∉ ends) →
      (∀ done, done <+: events → (start.run done).Solitary key) →
        (start.run events).store.get? key
          = summary? ends (decide ((start.run events).Fetching key)) ∧
        ∀ done e rest, events = done ++ e :: rest → (start.run done).Concerns key e →
          ∀ other, other ≠ key →
            (start.run (done ++ [e])).store.get? other = (start.run done).store.get? other := by
  refine ⟨fun s ends hnew hcalm => ⟨FeedStore.get?_fetched_summary hnew hcalm, ?_, ?_⟩, ?_⟩
  · rw [FeedStore.get?_beginFetch_summary (FeedStore.get?_fetched_summary hnew hcalm)]
    simp [summary?]
  · intro other hne
    have hends : (s.fetched key ends).get? other = s.get? other := FeedStore.get?_fetched_of_ne hne
    exact ⟨hends, (FeedStore.get?_update_of_ne _ hne).trans hends⟩
  · intro config clock draws events start ends hown hcalm halone
    have hs : start.system.Sound := sound_initial config clock draws
    have ht : start.Tended := tended_initial config clock draws
    refine ⟨?_, fun done e rest _ hconcerns other hne => ?_⟩
    · have hnew : start.Shows key [] := rfl
      exact shows_run hnew ht hs hown hcalm halone
    · rw [run_append]
      exact hconcerns.get?_step hne

/-- A feed brings null, fails, and is fetched again; another one is fetched meanwhile. -/
def refetched : List FeedEvent :=
  [.registerFeed { key := "a", interval := .ofSeconds 10 },
    .registerFeed { key := "b", interval := .ofSeconds 10 }, .poll (.fire 0), .beginFetch 0,
    .poll (.elapse (.ofSeconds 1)), .poll (.fire 1), .endFetch 0 (.data .null), .beginFetch 1,
    .finishFetch 0, .poll (.elapse (.ofSeconds 10)), .poll (.fire 2), .endFetch 1 .panicked,
    .finishFetch 1, .beginFetch 0, .endFetch 0 (.failed ["refused", "unreachable"]),
    .finishFetch 0, .poll (.elapse (.ofSeconds 10)), .poll (.fire 4), .beginFetch 0]

theorem feed_sums_up_refetched :
    let start := initial {} default ⟨[], []⟩
    let ends := start.endings "a" refetched
    (∀ call, FeedEvent.write call ∈ refetched → call.key ≠ "a") ∧
    (∀ time, (time, .panicked) ∉ ends) ∧
    (∀ done, done <+: refetched → (start.run done).Solitary "a") ∧
    (start.run refetched).store.get? "a"
      = ((({} : FeedStore).fetched "a" ends).beginFetch "a").get? "a" ∧
    ((start.run refetched).store.get? "a").map
        (fun f => (f.hasData, f.updatedAt, f.error, f.loading, f.isRefreshing)) =
      some (true, some (DateTime.later default (.ofSeconds 1)), some "refused: unreachable",
        false, true) := by
  intro start ends
  have hown : ∀ call, FeedEvent.write call ∈ refetched → call.key ≠ "a" := by simp [refetched]
  have hends : ends.all (fun p => p.2 matches .data _ | .failed _) := by decide +kernel
  have hcalm : ∀ time, (time, .panicked) ∉ ends := fun time hmem =>
    absurd (List.all_eq_true.mp hends _ hmem) (by simp)
  have halone : ∀ done ∈ refetched.inits, (start.run done).Solitary "a" := by decide +kernel
  have hprefix : ∀ done, done <+: refetched → (start.run done).Solitary "a" :=
    fun done hdone => halone done ((List.mem_inits _ _).mpr hdone)
  have hgoing : (start.run refetched).Fetching "a" := by decide +kernel
  obtain ⟨hbare, hwithin⟩ := feed_sums_up "a"
  have hshown : (start.run refetched).store.get? "a" = some (summary ends true) := by
    refine ((hwithin {} default ⟨[], []⟩ refetched hown hcalm hprefix).1).trans ?_
    rw [decide_eq_true hgoing]
    simp [summary?, ends, start]
  refine ⟨hown, hcalm, hprefix, ?_, ?_⟩
  · rw [hshown, (hbare {} ends rfl hcalm).2.1]
  · rw [hshown]
    decide +kernel

end FeedSystem

end FeedPoller
