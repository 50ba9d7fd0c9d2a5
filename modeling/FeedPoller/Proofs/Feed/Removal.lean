/-
What outlives the removal of a feed.

A feed is withdrawn in two steps: its poll is cleaned up, and its entry is taken out of the
store.  Neither ends a run that is going on, and whoever writes to the store makes an entry
where there is none, so the entry can come back.  What brings it back is known when the poll is
cleaned up.  As long as the key stays unregistered no run of the feed begins, so those that are
under way were under way then, some of which the store may not have heard of yet.  The first
of them that tells the store that its fetch begins, or that it has ended with data or an error, and
nothing else, makes the entry anew.
-/
import FeedPoller.Daemon.Launch
import FeedPoller.Proofs.Feed.Fetching
import FeedPoller.Proofs.Poll.Handles

namespace FeedPoller

/-! ### What the store has of a feed -/

/-- The key that a call writes to. -/
def StoreWrite.key : StoreWrite → String
  | .begin key | .complete key _ | .fail key _ | .remove key => key

namespace FeedStore

variable {s : FeedStore} {key other : String} {o : FetchOutcome}

theorem get?_remove_self : (s.remove key).get? key = none := Fields.find?_erase_self

theorem get?_remove_of_ne (h : other ≠ key) : (s.remove key).get? other = s.get? other :=
  Fields.find?_erase_of_ne h

theorem get?_write_of_ne {call : StoreWrite} (h : key ≠ call.key) (time : DateTime) :
    (s.write time call).get? key = s.get? key := by
  cases call with
  | remove other => exact get?_remove_of_ne h
  | begin other => exact get?_update_of_ne _ h
  | complete other data => exact get?_update_of_ne _ h
  | fail other error => exact get?_update_of_ne _ h

theorem get?_endFetch_of_ne (h : other ≠ key) (time : DateTime) :
    (s.endFetch key o time).get? other = s.get? other := by
  cases o with
  | data value => exact get?_update_of_ne _ h
  | failed causes => exact get?_update_of_ne _ h
  | panicked => rfl

/-- A fetch that does not panic leaves an entry, whether there was one or not. -/
theorem get?_endFetch_ne_none (h : o ≠ .panicked) (time : DateTime) :
    (s.endFetch key o time).get? key ≠ none := by
  cases o with
  | data value => exact ne_of_eq_of_ne (get?_update_self _) (Option.some_ne_none _)
  | failed causes => exact ne_of_eq_of_ne (get?_update_self _) (Option.some_ne_none _)
  | panicked => exact absurd rfl h

end FeedStore

/-! ### Keys that stay away -/

namespace System

variable {s : System} {r : Registration} {key : String}

/-- An event registers no key anew: the key was registered before if it is afterwards. -/
def Unreturned (key : String) (s : System) (e : Event) : Prop :=
  key ∈ (s.step e).coordinator.keys → key ∈ s.coordinator.keys

instance (key : String) (s : System) (e : Event) : Decidable (Unreturned key s e) :=
  inferInstanceAs (Decidable (_ → _))

/-- Nothing is registered under a key. -/
structure Vacant (s : System) (key : String) : Prop where
  sound : s.Sound
  absent : key ∉ s.coordinator.keys

/-- What begins is a run of something registered. -/
theorem Vacant.not_begun (h : s.Vacant key) {n : Nat} {run : Run}
    (hfire : (s.fire n).2 = some run) : run.key ≠ key := by
  rintro rfl
  obtain ⟨r, t, hright⟩ := h.sound.rightful hfire
  exact h.absent (List.mem_map.mpr ⟨r, hright.registered, hright.key⟩)

theorem Vacant.run (h : s.Vacant key) {events : List Event}
    (hback : Lawful (Unreturned key) s events) : (s.run events).Vacant key :=
  hback.run (I := (·.Vacant key))
    (fun _ e h hun => ⟨h.sound.step e, fun hmem => h.absent (hun hmem)⟩) h

/-- Who cleans up a registration leaves nothing registered under its key. -/
theorem Sound.vacant_cleanup (hs : s.Sound) (hr : r ∈ s.coordinator.registry) :
    (s.step (.cleanup r.handle)).Vacant r.key := by
  refine ⟨hs.step _, fun hmem => ?_⟩
  obtain ⟨-, -, -, e⟩ | ⟨hno, -⟩ := hs.cleanup_step r.handle
  · rw [e] at hmem
    obtain ⟨q, hq, hkey⟩ := List.mem_map.mp hmem
    obtain ⟨hq, hid⟩ := List.mem_filter.mp hq
    rw [hs.tidy.key_unique hq hr hkey] at hid
    exact absurd hid (by simp [Registration.handle])
  · exact hno r hr rfl

end System

namespace FeedSystem

open FeedPoller.System

variable {s : FeedSystem} {e : FeedEvent} {key : String}

/-- A run that fetches a feed has begun and not ended, whatever stage it has come to. -/
def Underway (s : FeedSystem) (key : String) (run : Run) : Prop :=
  run.key = key ∧ ∃ f ∈ s.fetches, f.run = run

/-- A run of a feed tells the store that its fetch begins, or how it ends, if in no panic. -/
def Tells (s : FeedSystem) (key : String) (run : Run) : FeedEvent → Prop
  | .beginFetch id => s.fetch? id = some ⟨run, .pending⟩ ∧ run.key = key
  | .endFetch id o => s.fetch? id = some ⟨run, .going⟩ ∧ run.key = key ∧ o ≠ .panicked
  | _ => False

theorem Tended.mem_runs (h : s.Tended) {run : Run} (hrun : s.Underway key run) :
    run ∈ s.system.runs := by
  obtain ⟨-, f, hf, rfl⟩ := hrun
  exact h.running f hf

/-! ### One event -/

/-- No fetch begins under a key that nothing is registered under. -/
theorem underway_of_step (h : s.system.Vacant key) {run : Run}
    (hrun : (s.step e).Underway key run) : s.Underway key run := by
  obtain ⟨hkey, f, hf, rfl⟩ := hrun
  rcases run_of_mem_step hf with hold | ⟨n, -, hfire, -⟩
  · exact ⟨hkey, hold⟩
  · exact absurd hkey (h.not_begun hfire)

theorem Tells.underway {run : Run} (h : s.Tells key run e) : s.Underway key run := by
  cases e with
  | beginFetch id => exact ⟨h.2, _, (mem_of_fetch? h.1).1, rfl⟩
  | endFetch id o => exact ⟨h.2.1, _, (mem_of_fetch? h.1).1, rfl⟩
  | _ => exact h.elim

/-- What the store is told leaves an entry. -/
theorem Tells.entry {run : Run} (h : s.Tells key run e) : (s.step e).store.get? key ≠ none := by
  cases e with
  | beginFetch id =>
      obtain ⟨hfetch, rfl⟩ := h
      rw [(step_beginFetch hfetch).1]
      exact ne_of_eq_of_ne (FeedStore.get?_update_self _) (Option.some_ne_none _)
  | endFetch id o =>
      obtain ⟨hfetch, rfl, hpanic⟩ := h
      rw [(step_endFetch hfetch o).1]
      exact FeedStore.get?_endFetch_ne_none hpanic _
  | _ => exact h.elim

/-- Where the store is told nothing of a feed, its entry stays as it is. -/
theorem get?_step_of_not_tells (hown : ∀ call, e = .write call → call.key ≠ key)
    (hno : ∀ run, ¬ s.Tells key run e) : (s.step e).store.get? key = s.store.get? key := by
  cases effect s e with
  | none store fetches | started hfire hfeed store fetches | finished hfetch store fetches =>
      rw [store]
  | @begun run _ hfetch store fetches =>
      have hkey : key ≠ run.key := fun hkey => hno run ⟨hfetch, hkey.symm⟩
      rw [store]
      exact FeedStore.get?_update_of_ne _ hkey
  | @ended run o _ hfetch store fetches =>
      rw [store]
      by_cases hkey : key = run.key
      · have hpanic : o = .panicked := by
          by_contra hpanic
          exact hno run ⟨hfetch, hkey.symm, hpanic⟩
        rw [hpanic]
        rfl
      · exact FeedStore.get?_endFetch_of_ne hkey _
  | written store fetches =>
      rw [store]
      exact FeedStore.get?_write_of_ne (hown _ rfl).symm _

/-- An entry is there after an event if it was there before, or if the store is told of the feed. -/
theorem entry_step (hown : ∀ call, e = .write call → call.key ≠ key) :
    (s.step e).store.get? key ≠ none ↔
      s.store.get? key ≠ none ∨ ∃ run, s.Tells key run e := by
  by_cases htold : ∃ run, s.Tells key run e
  · obtain ⟨run, hrun⟩ := htold
    exact iff_of_true hrun.entry (Or.inr ⟨run, hrun⟩)
  · rw [get?_step_of_not_tells hown (not_exists.mp htold), or_iff_left htold]

/-! ### Every history -/

/-- A key that stays away stays away event by event. -/
theorem vacant_cons {rest : List FeedEvent} (h : s.system.Vacant key)
    (hback : Lawful (Unreturned key) s.system (s.history (e :: rest))) :
    (s.step e).system.Vacant key ∧
      Lawful (Unreturned key) (s.step e).system ((s.step e).history rest) := by
  obtain ⟨hfirst, hlater⟩ := lawful_append.mp hback
  rw [step_system]
  exact ⟨h.run hfirst, hlater⟩

/-- The runs that are under way were under way before. -/
theorem underway_of_run {events : List FeedEvent} (h : s.system.Vacant key)
    (hback : Lawful (Unreturned key) s.system (s.history events)) {run : Run}
    (hrun : (s.run events).Underway key run) : s.Underway key run := by
  induction events generalizing s with
  | nil => exact hrun
  | cons e rest ih =>
      obtain ⟨hnext, hlater⟩ := vacant_cons h hback
      exact underway_of_step h (ih hnext hlater hrun)

/-- The store has been told of a feed in the course of a history. -/
def ToldOf (s : FeedSystem) (key : String) (events : List FeedEvent) : Prop :=
  ∃ done e rest run, events = done ++ e :: rest ∧ (s.run done).Tells key run e

theorem toldOf_cons {rest : List FeedEvent} :
    s.ToldOf key (e :: rest) ↔ (∃ run, s.Tells key run e) ∨ (s.step e).ToldOf key rest := by
  constructor
  · rintro ⟨_ | ⟨first, done⟩, f, more, run, heq, hrun⟩
    · obtain ⟨rfl, rfl⟩ := List.cons.inj heq
      exact Or.inl ⟨run, hrun⟩
    · obtain ⟨rfl, rfl⟩ := List.cons.inj heq
      exact Or.inr ⟨done, f, more, run, rfl, hrun⟩
  · rintro (⟨run, hrun⟩ | ⟨done, f, more, run, rfl, hrun⟩)
    · exact ⟨[], e, rest, run, rfl, hrun⟩
    · exact ⟨e :: done, f, more, run, rfl, hrun⟩

/-- An entry is there if it was there before, or if the store has been told of the feed since. -/
theorem entry_run {events : List FeedEvent}
    (hown : ∀ call, FeedEvent.write call ∈ events → call.key ≠ key) :
    (s.run events).store.get? key ≠ none ↔ s.store.get? key ≠ none ∨ s.ToldOf key events := by
  induction events generalizing s with
  | nil => simp [FeedSystem.run, ToldOf]
  | cons e rest ih =>
      have hfirst : ∀ call, e = .write call → call.key ≠ key :=
        fun call he => hown call (he ▸ List.mem_cons_self)
      have hothers : ∀ call, FeedEvent.write call ∈ rest → call.key ≠ key :=
        fun call hcall => hown call (List.mem_cons_of_mem _ hcall)
      rw [run_cons, ih hothers, entry_step hfirst, or_assoc, toldOf_cons]

/-! ### The withdrawal of a feed -/

/-- A feed is withdrawn: its poll is cleaned up, and some time later its entry is removed. -/
def withdrawal (handle : PollHandle) (between : List FeedEvent) : List FeedEvent :=
  .poll (.cleanup handle) :: (between ++ [.write (.remove handle.key)])

/-- The end of a daemon is the withdrawal of all its feeds, one after the other. -/
theorem run_withdrawals (s : FeedSystem) (halive : s.system.alive = true)
    (handles : List PollHandle) :
    s.run (handles.flatMap (withdrawal · [])) = { s with
      system := { s.system with
        coordinator := (s.system.coordinator.withdrawFeeds s.store handles).1 }
      store := (s.system.coordinator.withdrawFeeds s.store handles).2 } := by
  induction handles generalizing s with
  | nil => rfl
  | cons h rest ih =>
      have hfirst : s.run (withdrawal h []) = { s with
          system := { s.system with coordinator := s.system.coordinator.cleanup h }
          store := s.store.remove h.key } := by
        simp [withdrawal, FeedSystem.run, FeedSystem.step, noticed, storeAfter, feedsAfter,
          fetchesAfter, System.step, System.call, FeedStore.write, halive]
      rw [List.flatMap_cons, run_append, hfirst]
      exact ih _ halive

/-- What a withdrawal leaves: no entry, nothing registered, and no run but those of before. -/
structure Withdrawn (s : FeedSystem) (key : String) (gone : FeedSystem) : Prop where
  vacant : gone.system.Vacant key
  underway : ∀ run, gone.Underway key run → s.Underway key run
  entry : gone.store.get? key = none

theorem withdrawn {h : PollHandle} {between : List FeedEvent} (hs : s.system.Sound)
    (hlive : ∃ r ∈ s.system.coordinator.registry, r.handle = h)
    (hback : Lawful (Unreturned h.key) s.system (s.history (withdrawal h between))) :
    Withdrawn s h.key (s.run (withdrawal h between)) := by
  obtain ⟨r, hr, rfl⟩ := hlive
  have hvacant : (s.step (.poll (.cleanup r.handle))).system.Vacant r.handle.key :=
    hs.vacant_cleanup hr
  obtain ⟨-, hlater⟩ := lawful_append.mp hback
  rw [← step_system] at hlater
  refine ⟨?_, fun run hrun => ?_, ?_⟩
  · rw [withdrawal, run_cons, run_system]
    exact hvacant.run hlater
  · -- Cleaning up changes no fetch, and from then on no run begins.
    exact underway_of_run hvacant hlater hrun
  · rw [withdrawal, run_cons, run_append]
    exact FeedStore.get?_remove_self

/--
**What brings a withdrawn feed back.**  Once the poll of a feed has been cleaned up and its entry
removed, and as long as the key is not registered again and nobody else writes for it, no
run of the key begins, and a run that fetches it was under way when the poll was cleaned up.
The store has an entry for the key again exactly if such a run has since told it that its fetch
begins, or that it has ended with data or an error; so it never has one if no run was under way.
-/
theorem entry_returns_iff (config : CoordinatorConfig) (clock : Clock) (draws : Draws)
    (before between after : List FeedEvent) (h : PollHandle)
    (hlive : ∃ r ∈ ((initial config clock draws).run before).system.coordinator.registry,
      r.handle = h)
    (hback : Lawful (Unreturned h.key) ((initial config clock draws).run before).system
      (((initial config clock draws).run before).history (withdrawal h between ++ after)))
    (hown : ∀ call, FeedEvent.write call ∈ after → call.key ≠ h.key) :
    let s := (initial config clock draws).run before
    let gone := s.run (withdrawal h between)
    (∀ n run, ((gone.run after).system.fire n).2 = some run → run.key ≠ h.key) ∧
    (∀ run, (gone.run after).Underway h.key run →
      run ∈ s.system.runs ∧ s.Underway h.key run) ∧
    ((gone.run after).store.get? h.key ≠ none ↔
      ∃ done e rest run, after = done ++ e :: rest ∧ s.Underway h.key run ∧
        (gone.run done).Tells h.key run e) ∧
    ((∀ run ∈ s.system.runs, ¬ s.Underway h.key run) →
      (gone.run after).store.get? h.key = none) := by
  intro s gone
  have hs : s.system.Sound := by
    rw [run_system]
    exact (sound_initial config clock draws).run _
  have htended : s.Tended :=
    (tended_initial config clock draws).run (sound_initial config clock draws) before
  rw [history_append] at hback
  obtain ⟨hfirst, hlater⟩ := lawful_append.mp hback
  rw [← run_system] at hlater
  have hgone : Withdrawn s h.key gone := withdrawn hs hlive hfirst
  have hentry : (gone.run after).store.get? h.key ≠ none ↔
      ∃ done e rest run, after = done ++ e :: rest ∧ s.Underway h.key run ∧
        (gone.run done).Tells h.key run e := by
    rw [entry_run hown, or_iff_right (not_not.mpr hgone.entry)]
    constructor
    · rintro ⟨done, e, rest, run, rfl, htells⟩
      rw [history_append] at hlater
      have hdone : gone.Underway h.key run :=
        underway_of_run hgone.vacant (lawful_append.mp hlater).1 htells.underway
      exact ⟨done, e, rest, run, rfl, hgone.underway run hdone, htells⟩
    · rintro ⟨done, e, rest, run, hsplit, -, htells⟩
      exact ⟨done, e, rest, run, hsplit, htells⟩
  refine ⟨fun n run => ?_, fun run hrun => ?_, hentry, fun hnone => ?_⟩
  · have hvacant : (gone.run after).system.Vacant h.key := by
      rw [run_system]
      exact hgone.vacant.run hlater
    exact hvacant.not_begun
  · have hold := hgone.underway run (underway_of_run hgone.vacant hlater hrun)
    exact ⟨htended.mem_runs hold, hold⟩
  · by_contra hsome
    obtain ⟨-, -, -, run, -, hold, -⟩ := hentry.mp hsome
    exact hnone run (htended.mem_runs hold) hold

/-- A feed whose poll is replaced before the store has heard of its run, and another one. -/
def replacedAgain : List FeedEvent :=
  [.registerFeed { key := "a", interval := .ofSeconds 10 },
    .registerFeed { key := "b", interval := .ofSeconds 10 }, .poll (.fire 0),
    .registerFeed { key := "a", interval := .ofSeconds 10 }]

/-- A fetch of the other feed begins. -/
def meanwhile : List FeedEvent :=
  [.poll (.elapse (.ofSeconds 1)), .poll (.fire 1), .beginFetch 1]

/-- The other feed is fetched and withdrawn, and then the first one is fetched in vain. -/
def straggling : List FeedEvent :=
  [.endFetch 1 (.data .null), .poll (.cleanup ⟨"b", 1⟩), .finishFetch 1, .write (.remove "b"),
    .poll (.elapse (.ofSeconds 10)), .beginFetch 0, .endFetch 0 .panicked, .finishFetch 0]

theorem entry_returns_iff_straggling :
    let s := (initial {} default ⟨[], []⟩).run replacedAgain
    let gone := s.run (withdrawal ⟨"a", 2⟩ meanwhile)
    Lawful (Unreturned "a") s.system (s.history (withdrawal ⟨"a", 2⟩ meanwhile ++ straggling)) ∧
    gone.store.get? "a" = none ∧ (gone.run straggling).store.get? "a" ≠ none ∧
    ∃ done e rest run, straggling = done ++ e :: rest ∧ s.Underway "a" run ∧
      (gone.run done).Tells "a" run e := by
  intro s gone
  have hlive : ∃ r ∈ s.system.coordinator.registry, r.handle = ⟨"a", 2⟩ := by decide +kernel
  have hback : Lawful (Unreturned "a") s.system
      (s.history (withdrawal ⟨"a", 2⟩ meanwhile ++ straggling)) := by decide +kernel
  have hown : ∀ call, FeedEvent.write call ∈ straggling → call.key ≠ "a" := by
    simp [straggling, StoreWrite.key]
  have hgone : gone.store.get? "a" = none := by decide +kernel
  have hentry : (gone.run straggling).store.get? "a" ≠ none := by decide +kernel
  obtain ⟨-, -, hreturns, -⟩ := entry_returns_iff {} default ⟨[], []⟩ replacedAgain meanwhile
    straggling ⟨"a", 2⟩ hlive hback hown
  exact ⟨hback, hgone, hentry, hreturns.mp hentry⟩

/-- A withdrawn feed does not stay away for good: a fetch that was going on brings it back. -/
theorem entry_returns_late :
    ¬ ∀ (config : CoordinatorConfig) (clock : Clock) (draws : Draws)
        (before after : List FeedEvent) (h : PollHandle),
      (∃ r ∈ ((initial config clock draws).run before).system.coordinator.registry, r.handle = h) →
      Lawful (Unreturned h.key) ((initial config clock draws).run before).system
        (((initial config clock draws).run before).history (withdrawal h [] ++ after)) →
      (∀ e ∈ after, ∀ call, e ≠ .write call) →
      (((initial config clock draws).run before).run (withdrawal h [] ++ after)).store.get? h.key
        = none := by
  intro hgone
  have hnone := hgone {} default ⟨[], []⟩
    [.registerFeed { key := "a", interval := .ofSeconds 10 }, .poll (.fire 0), .beginFetch 0]
    [.endFetch 0 (.data .null)] ⟨"a", 0⟩ (by decide +kernel) (by decide +kernel) (by simp)
  exact absurd hnone (by decide +kernel)

end FeedSystem

end FeedPoller
