/-
Polls that are registered one after the other.

The first run of a poll is put off by a step for every other poll that is registered already, so
that polls registered together do not all start together.  A key may be registered again in
between.  Its registration then leaves the registry and comes back at the end, and what it is
put off by is counted anew, while whoever came after it keeps the place it had.  So the order
of a registration is the number of other keys that had come before it, and not its rank among
those that are there in the end, and two registrations may share it.

The file counts keys.  As long as polls are registered and nothing else happens the keys of the
registry are those of the calls (`Staggered`), so the order of each newcomer is a number of
keys of a list of calls, and two orders are compared by comparing two sets.
-/
import FeedPoller.Proofs.Poll.Rhythm
import Mathlib.Data.Finset.Card
import Mathlib.Data.Finset.Dedup

namespace FeedPoller

/-- The keys that some calls are for. -/
def keysOf (calls : List PollOptions) : Finset String := (calls.map (·.key)).toFinset

theorem mem_keysOf {calls : List PollOptions} {key : String} :
    key ∈ keysOf calls ↔ ∃ o ∈ calls, o.key = key := by
  simp [keysOf]

theorem keysOf_append_singleton (calls : List PollOptions) (o : PollOptions) :
    keysOf (calls ++ [o]) = insert o.key (keysOf calls) := by
  ext key
  simp [keysOf]

theorem keysOf_take_subset (calls : List PollOptions) {m n : Nat} (h : m ≤ n) :
    keysOf (calls.take m) ⊆ keysOf (calls.take n) := by
  intro key hkey
  obtain ⟨o, ho, rfl⟩ := mem_keysOf.mp hkey
  exact mem_keysOf.mpr ⟨o, (List.take_prefix_take_left h).subset ho, rfl⟩

namespace Coordinator

variable {c : Coordinator} {r : Registration} {o : PollOptions} {h : PollHandle}

/-- Making room for a key leaves all other keys. -/
theorem Tidy.vacate_keys (ht : c.Tidy) (key : String) :
    (c.vacate key).keys = c.keys.filter (· != key) := by
  have hkeys : ∀ c : Coordinator, c.keys = (c.registry.map (·.handle)).map (·.key) := by
    intro c
    rw [List.map_map]
    rfl
  rw [hkeys, ht.vacate_handles, hkeys c]
  simp only [List.filter_map, List.map_map, Function.comp_def]

theorem Tidy.card_keys (ht : c.Tidy) : c.keys.toFinset.card = c.registry.length := by
  have hnodup : c.keys.Nodup := ht.keys
  rw [List.toFinset_card_of_nodup hnodup, Coordinator.keys, List.length_map]

/-- A newcomer finds as many registrations as there are other keys. -/
theorem Tidy.vacate_length (ht : c.Tidy) (key : String) :
    (c.vacate key).registry.length = (c.keys.toFinset.erase key).card := by
  have herase : c.keys.toFinset.erase key = (c.vacate key).keys.toFinset := by
    ext k
    simp [ht.vacate_keys, and_comm]
  rw [herase, (ht.vacate key).card_keys]

/-- What a call comes to that succeeds while every gate is open and no run goes on. -/
theorem Tidy.register_idle (ht : c.Tidy) (hopen : c.gates = {})
    (hidle : ∀ r ∈ c.registry, r.inFlight = false) (hok : (c.register o).2 = .ok h) :
    ∃ deadline,
      c.clock.now.after? (c.staggerDelay (c.keys.toFinset.erase o.key).card) = some deadline ∧
      (c.register o).1 =
        { (c.vacate o.key).join { ((c.vacate o.key).newcomer o none).scheduled with
            timer := some c.armed } with
          timers := (c.vacate o.key).timers ++ [⟨c.armed, c.nextId, 1, deadline⟩]
          armed := c.armed + 1 } := by
  obtain ⟨hfault, hdisposed, -⟩ := register_ok hok
  obtain ⟨hbad, -⟩ | ⟨-, -, e⟩ := register_cases c o
  · simp [hfault, hdisposed] at hbad
  have hawaited : c.awaitedFor o.key = none := by
    obtain ⟨-, -, hnone⟩ | ⟨r, hr, -, -, hawaited⟩ := vacate_cases c o.key
    · exact hnone
    · rw [hawaited, Registration.awaitedRun, hidle r hr]
      rfl
  obtain ⟨registry, timers, hframe⟩ := vacate_frame c o.key
  have hgate : ((c.vacate o.key).newcomer o none).gateClosed (c.vacate o.key).gates = false := by
    rw [hframe]
    show Registration.gateClosed _ c.gates = false
    simp [hopen, Registration.gateClosed]
  rw [e, hawaited] at hok ⊢
  rw [append_answer, hgate] at hok
  cases hdeadline : (c.vacate o.key).clock.now.after?
      ((c.vacate o.key).staggerDelay (c.vacate o.key).registry.length) with
  | none => simp [hdeadline] at hok
  | some deadline =>
    have hfresh : ∀ q ∈ (c.vacate o.key).registry, q.id ≠ (c.vacate o.key).nextId :=
      fun q hq => Nat.ne_of_lt ((ht.vacate o.key).fresh q hq)
    refine ⟨deadline, ?_, ?_⟩
    · rw [← ht.vacate_length, ← hdeadline, hframe]
      rfl
    · rw [append_open hfresh hgate hdeadline, hframe]

end Coordinator

namespace System

open Coordinator

variable {s : System} {start : Coordinator} {calls polls : List PollOptions} {o : PollOptions}
  {p q r : Registration}

/-- A registration that succeeded, as the calls have it, with the timer of its first run. -/
structure Placed (s : System) (calls : List PollOptions) (r : Registration) : Prop where
  call : calls[r.id]? = some r.options
  last : ∀ o ∈ calls.drop (r.id + 1), o.key ≠ r.key
  /-- As many other keys came before it as its order says. -/
  order : r.order = ((keysOf (calls.take r.id)).erase r.key).card
  unpaused : r.explicitlyPaused = false
  timed : ∃ t, s.TimedBy r t ∧
    s.now.after? (s.coordinator.staggerDelay r.order) = some t.deadline

/-- What is there after some polls have been registered with a coordinator that had none. -/
structure Staggered (start : Coordinator) (calls : List PollOptions) (s : System) : Prop where
  /-- The calls take no time, and the gates stay as they were. -/
  setting : s.coordinator.setting = start.setting
  alive : s.alive = true
  undisposed : s.coordinator.disposed = false
  quiet : s.runs = []
  next : s.coordinator.nextId = calls.length
  keys : s.coordinator.keys.toFinset = keysOf calls
  placed : ∀ r ∈ s.coordinator.registry, s.Placed calls r

/-- A registration stays in its place when another key is registered. -/
theorem Placed.grown {e : Event} (h : s.Placed calls r) (hs : s.Sound)
    (hr : r ∈ s.coordinator.registry) (hr' : r ∈ (s.step e).coordinator.registry)
    (hne : r.key ≠ o.key) (hset : (s.step e).coordinator.setting = s.coordinator.setting) :
    (s.step e).Placed (calls ++ [o]) r := by
  have hlt : r.id < calls.length := (List.getElem?_eq_some_iff.mp h.call).1
  have hnow : (s.step e).now = s.now := congrArg (fun x => x.2.1.now) hset
  have hconfig : (s.step e).coordinator.config = s.coordinator.config := congrArg (·.2.2) hset
  obtain ⟨t, ht, hdue⟩ := h.timed
  refine ⟨?_, fun p hp => ?_, ?_, h.unpaused, t, hs.timedBy_of_kept hr ht hr', ?_⟩
  · rw [List.getElem?_append_left hlt]
    exact h.call
  · rw [List.drop_append_of_le_length hlt] at hp
    rcases List.mem_append.mp hp with hp | hp
    · exact h.last p hp
    · rw [List.mem_singleton.mp hp]
      exact Ne.symm hne
  · rw [List.take_append_of_le_length (Nat.le_of_lt hlt)]
    exact h.order
  · rw [hnow, staggerDelay, hconfig]
    exact hdue

/-- The next poll is registered after the others. -/
theorem Staggered.step (h : Staggered start calls s) (hs : s.Sound) (hopen : start.gates = {})
    (hgranted : (s.granted (.register o)).isSome) :
    Staggered start (calls ++ [o]) (s.step (.register o)) := by
  obtain ⟨⟨handle, o'⟩, hgrant⟩ := Option.isSome_iff_exists.mp hgranted
  obtain ⟨heq, halive, hok⟩ := granted_eq_some hgrant
  obtain rfl := Event.register.inj heq
  have hgates : s.coordinator.gates = {} := (congrArg (·.1) h.setting).trans hopen
  have hidle : ∀ r ∈ s.coordinator.registry, r.inFlight = false := by
    intro r hr
    obtain ⟨t, ht, -⟩ := (h.placed r hr).timed
    exact hs.tidy.idle r hr (by simp [ht.remembered])
  obtain ⟨deadline, hdeadline, hregister⟩ := hs.tidy.register_idle hgates hidle hok
  have hcall : s.step (.register o) = { s with coordinator := (s.coordinator.register o).1 } := by
    show (s.call fun c => (c.register o).1) = _
    rw [System.call, if_pos halive]
  have hstep := congrArg System.coordinator hcall
  rw [hregister] at hstep
  obtain ⟨registry, timers, hframe⟩ := vacate_frame s.coordinator o.key
  have hset : (s.step (.register o)).coordinator.setting = s.coordinator.setting := by
    rw [hstep, hframe]
    rfl
  refine ⟨hset.trans h.setting, ?_, ?_, ?_, ?_, ?_, fun r hr => ?_⟩
  · rw [hcall]
    exact halive
  · rw [hstep, ← h.undisposed]
    exact vacate_disposed _ _
  · rw [hcall]
    exact h.quiet
  · rw [hstep]
    show (s.coordinator.vacate o.key).nextId + 1 = _
    rw [vacate_nextId, h.next, List.length_append, List.length_singleton]
  · rw [keysOf_append_singleton, ← h.keys]
    have hkeys : (s.step (.register o)).coordinator.keys =
        (s.coordinator.vacate o.key).keys ++ [o.key] := by
      rw [hstep]
      simp [Coordinator.keys, join, newcomer, Registration.key, Registration.scheduled,
        Registration.cancelled]
    ext key
    by_cases hkey : key = o.key
    · simp [hkeys, hkey]
    · simp [hkeys, hs.tidy.vacate_keys, hkey]
  · have hmem := hr
    rw [hstep] at hmem
    rcases List.mem_append.mp hmem with hmem | hmem
    · obtain ⟨hmem, hne⟩ := mem_vacate hs.tidy hmem
      exact (h.placed r hmem).grown hs hmem hr hne hset
    · -- The newcomer finds a registration for every other key that came before it.
      have hnew := List.mem_singleton.mp hmem
      have hid : r.id = calls.length := by
        rw [hnew, ← h.next]
        exact vacate_nextId _ _
      have horder : r.order = (s.coordinator.keys.toFinset.erase o.key).card := by
        rw [hnew, ← hs.tidy.vacate_length]
        rfl
      have hoptions : r.options = o := by rw [hnew]; rfl
      have hkey : r.key = o.key := congrArg PollOptions.key hoptions
      have harmed : ⟨s.coordinator.armed, s.coordinator.nextId, 1, deadline⟩ ∈
          (s.step (.register o)).coordinator.timers := by
        rw [hstep]
        exact List.mem_append_right _ (List.mem_singleton.mpr rfl)
      refine ⟨?_, ?_, ?_, ?_, _, (hs.step _).timedBy harmed hr (hid.trans h.next.symm), ?_⟩
      · simp [hid, hoptions]
      · simp [hid]
      · simp [horder, h.keys, hid, hkey]
      · rw [hnew]
        rfl
      · rw [horder, ← hdeadline, System.now, hstep, hframe]
        rfl

theorem Staggered.run {rest : List PollOptions} (h : Staggered start calls s) (hs : s.Sound)
    (hopen : start.gates = {})
    (hgranted : Lawful (fun s e => (s.granted e).isSome) s (rest.map .register)) :
    Staggered start (calls ++ rest) (s.run (rest.map .register)) := by
  induction rest generalizing s calls with
  | nil => rwa [List.append_nil]
  | cons o rest ih =>
    have hall := ih (h.step hs hopen hgranted.1) (hs.step _) hgranted.2
    rwa [List.append_assoc] at hall

theorem staggered_initial (config : CoordinatorConfig) (clock : Clock) (draws : Draws) :
    Staggered (initial config clock draws).coordinator [] (initial config clock draws) where
  setting := rfl
  alive := rfl
  undisposed := rfl
  quiet := rfl
  next := rfl
  keys := rfl
  placed := fun _ hr => absurd hr List.not_mem_nil

/-! ### Two places compared -/

/-- A registration and those that it found make up the keys of the calls so far. -/
theorem Placed.order_succ (h : s.Placed calls r) :
    r.order + 1 = (keysOf (calls.take (r.id + 1))).card := by
  have hcalls : calls.take (r.id + 1) = calls.take r.id ++ [r.options] := by
    rw [List.take_add_one, h.call]
    rfl
  rw [h.order, hcalls, keysOf_append_singleton, ← Finset.card_erase_add_one
    (Finset.mem_insert_self r.options.key _), Finset.erase_insert_eq_erase]
  rfl

theorem Placed.order_le (hp : s.Placed calls p) (hq : s.Placed calls q) (h : p.id ≤ q.id) :
    p.order ≤ q.order := by
  have hcard := Finset.card_le_card (keysOf_take_subset calls (Nat.succ_le_succ h))
  rw [← hp.order_succ, ← hq.order_succ] at hcard
  exact Nat.le_of_succ_le_succ hcard

/-- The later one has a place of its own exactly if a key was registered that was new. -/
theorem Placed.order_lt_iff (hp : s.Placed calls p) (hq : s.Placed calls q) (h : p.id ≤ q.id) :
    p.order < q.order ↔
      ∃ o ∈ calls.take (q.id + 1), o.key ∉ keysOf (calls.take (p.id + 1)) := by
  have hsub := keysOf_take_subset calls (Nat.succ_le_succ h)
  rw [← Nat.succ_lt_succ_iff, Nat.succ_eq_add_one, Nat.succ_eq_add_one, hp.order_succ,
    hq.order_succ]
  constructor
  · intro hlt
    obtain ⟨key, hkey, hnew⟩ := Finset.exists_mem_notMem_of_card_lt_card hlt
    obtain ⟨o, ho, rfl⟩ := mem_keysOf.mp hkey
    exact ⟨o, ho, hnew⟩
  · rintro ⟨o, ho, hnew⟩
    refine Finset.card_lt_card (Finset.ssubset_iff_subset_ne.mpr ⟨hsub, fun heq => hnew ?_⟩)
    rw [heq]
    exact mem_keysOf.mpr ⟨o, ho, rfl⟩

/-- When the first run of a registration is due. -/
theorem Placed.deadline {t : Timer} (h : s.Placed calls r) (ht : s.TimedBy r t) :
    t.deadline.nanos = s.now.nanos +
      min r.order (Nat.pow 2 32 - 1) * s.coordinator.config.staggerStep.nanos := by
  obtain ⟨u, hu, hdue⟩ := h.timed
  have heq : [t] = [u] := ht.armed.symm.trans hu.armed
  rw [(List.cons.inj heq).1]
  exact Instant.after_times hdue

/-! ### Keys that come once -/

/-- A key that is new is registered if the deadline of its first run can be named. -/
theorem Staggered.granted (h : Staggered start calls s) (hs : s.Sound) (hfault : o.fault? = none)
    (hnew : o.key ∉ keysOf calls)
    (hnamed : (s.now.after? (s.coordinator.staggerDelay (keysOf calls).card)).isSome) :
    (s.granted (.register o)).isSome := by
  have hkeys : ∀ q ∈ s.coordinator.registry, q.key ≠ o.key := by
    intro q hq hkey
    refine hnew ?_
    rw [← h.keys, ← hkey]
    exact List.mem_toFinset.mpr (List.mem_map_of_mem hq)
  have hnot : (s.coordinator.clock.now.after?
      (s.coordinator.staggerDelay s.coordinator.registry.length)).isNone = false := by
    rw [← hs.tidy.card_keys, h.keys, Option.isNone_eq_false_iff]
    exact hnamed
  have hanswer : (s.coordinator.register o).2 = .ok ⟨o.key, s.coordinator.nextId⟩ := by
    rw [register_of_new hfault h.undisposed hkeys, append_answer, hnot]
    simp
  simp [System.granted, h.alive, hanswer, Except.toOption]

/-- Polls with keys of their own are all registered. -/
theorem Staggered.lawful (h : Staggered start calls s) (hs : s.Sound) (hopen : start.gates = {})
    (hfault : ∀ o ∈ polls, o.fault? = none) (hnodup : ((calls ++ polls).map (·.key)).Nodup)
    (hnamed : ∀ i < (calls ++ polls).length,
      (start.clock.now.after? (start.staggerDelay i)).isSome) :
    Lawful (fun s e => (s.granted e).isSome) s (polls.map .register) := by
  induction polls generalizing s calls with
  | nil => exact trivial
  | cons o polls ih =>
    have hnow : s.now = start.clock.now := congrArg (·.2.1.now) h.setting
    have hconfig : s.coordinator.config = start.config := congrArg (·.2.2) h.setting
    have hcalls : (calls.map (·.key)).Nodup :=
      hnodup.sublist ((List.sublist_append_left _ _).map _)
    have hcard : (keysOf calls).card = calls.length := by
      rw [keysOf, List.toFinset_card_of_nodup hcalls, List.length_map]
    have hnew : o.key ∉ keysOf calls := by
      intro hmem
      obtain ⟨p, hp, hkey⟩ := mem_keysOf.mp hmem
      rw [List.map_append, List.map_cons] at hnodup
      exact (List.nodup_append.mp hnodup).2.2 _ (List.mem_map_of_mem hp) _ List.mem_cons_self hkey
    have hgranted := h.granted hs (hfault o (by simp)) hnew (by
      rw [hcard, hnow, staggerDelay, hconfig]
      exact hnamed calls.length (by simp))
    refine ⟨hgranted, ih (h.step hs hopen hgranted) (hs.step _)
      (fun p hp => hfault p (by simp [hp])) ?_ ?_⟩
    · simpa using hnodup
    · simpa using hnamed

/-- Where no key comes twice every registration has the place of its call. -/
theorem Placed.order_of_nodup (h : s.Placed calls r) (hnodup : (calls.map (·.key)).Nodup) :
    r.order = r.id := by
  have hlt : r.id < calls.length := (List.getElem?_eq_some_iff.mp h.call).1
  have hcard : (keysOf (calls.take (r.id + 1))).card = r.id + 1 := by
    rw [keysOf, List.map_take, List.toFinset_card_of_nodup (hnodup.sublist (List.take_sublist _ _)),
      List.length_take, List.length_map]
    exact Nat.min_eq_left hlt
  exact Nat.succ_injective (h.order_succ.trans hcard)

/-- A poll among others with other keys stands under the number of its call. -/
theorem Staggered.placed_of_nodup (h : Staggered start calls s)
    (hnodup : (calls.map (·.key)).Nodup) {i : Nat} (ho : calls[i]? = some o) :
    ∃ r ∈ s.coordinator.registry, s.Placed calls r ∧ r.options = o ∧ r.order = i := by
  have hmem : o.key ∈ s.coordinator.keys.toFinset := by
    rw [h.keys]
    exact mem_keysOf.mpr ⟨o, List.mem_of_getElem? ho, rfl⟩
  obtain ⟨r, hr, hkey⟩ := List.mem_map.mp (List.mem_toFinset.mp hmem)
  have hplaced := h.placed r hr
  obtain ⟨hlt, hget⟩ := List.getElem?_eq_some_iff.mp hplaced.call
  obtain ⟨hlt', hget'⟩ := List.getElem?_eq_some_iff.mp ho
  have hi : r.id < (calls.map (·.key)).length := by simpa using hlt
  have hi' : i < (calls.map (·.key)).length := by simpa using hlt'
  have hsame : (calls.map (·.key))[r.id] = (calls.map (·.key))[i] := by
    rw [List.getElem_map, List.getElem_map, hget, hget']
    exact hkey
  have hid : r.id = i := hnodup.getElem_inj_iff.mp hsame
  refine ⟨r, hr, hplaced, ?_, (hplaced.order_of_nodup hnodup).trans hid⟩
  subst hid
  exact hget.symm.trans hget'

/-! ### All places -/

/--
**The places of polls registered one after the other.**  When calls to a new coordinator have
all succeeded at one instant, each registration is that of the last call for its key.  It has
for its order the number of other keys that came before that call, and one timer, due as many
stagger steps later, where steps are counted as far as 32 bits go.  Of two registrations the
later one has the higher order exactly if a key came with it or between them that had not come
up to the earlier one, and then its first run is due a step later at least.  So where no key
comes twice all orders are different.
-/
theorem stagger_exact (config : CoordinatorConfig) (clock : Clock) (draws : Draws)
    {calls : List PollOptions}
    (hgranted : Lawful (fun s e => (s.granted e).isSome) (initial config clock draws)
      (calls.map .register)) :
    let s := (initial config clock draws).run (calls.map .register)
    let registry := s.coordinator.registry
    (∀ r ∈ registry, calls[r.id]? = some r.options ∧
      (∀ o ∈ calls.drop (r.id + 1), o.key ≠ r.key) ∧
      r.order = ((keysOf (calls.take r.id)).erase r.key).card ∧
      ∃ t, s.TimedBy r t ∧ t.deadline.nanos =
        clock.now.nanos + min r.order (Nat.pow 2 32 - 1) * config.staggerStep.nanos) ∧
    (∀ p ∈ registry, ∀ q ∈ registry, p.id < q.id →
      p.order ≤ q.order ∧
      (p.order < q.order ↔
        ∃ o ∈ calls.take (q.id + 1), o.key ∉ keysOf (calls.take (p.id + 1))) ∧
      (p.order < q.order → p.order < Nat.pow 2 32 - 1 → ∀ t u, s.TimedBy p t → s.TimedBy q u →
        t.deadline.nanos + config.staggerStep.nanos ≤ u.deadline.nanos)) ∧
    ((calls.map (·.key)).Nodup → (registry.map (·.order)).Nodup) := by
  intro s registry
  have hs : s.Sound := sound_run config clock draws _
  have hall : Staggered (initial config clock draws).coordinator calls s :=
    (staggered_initial config clock draws).run (sound_initial config clock draws) rfl hgranted
  have hnow : s.now = clock.now := congrArg (fun x => x.2.1.now) hall.setting
  have hconfig : s.coordinator.config = config := congrArg (·.2.2) hall.setting
  have hdue : ∀ r ∈ registry, ∀ t, s.TimedBy r t → t.deadline.nanos =
      clock.now.nanos + min r.order (Nat.pow 2 32 - 1) * config.staggerStep.nanos := by
    intro r hr t ht
    rw [(hall.placed r hr).deadline ht, hnow, hconfig]
  refine ⟨fun r hr => ?_, fun p hp q hq hid => ?_, fun hnodup => ?_⟩
  · have hplaced := hall.placed r hr
    obtain ⟨t, ht, -⟩ := hplaced.timed
    exact ⟨hplaced.call, hplaced.last, hplaced.order, t, ht, hdue r hr t ht⟩
  · have hp' := hall.placed p hp
    have hq' := hall.placed q hq
    refine ⟨hp'.order_le hq' (Nat.le_of_lt hid), hp'.order_lt_iff hq' (Nat.le_of_lt hid),
      fun hlt hsmall t u ht hu => ?_⟩
    rw [hdue p hp t ht, hdue q hq u hu, Nat.add_assoc, ← Nat.succ_mul]
    exact Nat.add_le_add_left (Nat.mul_le_mul_right _ (by omega)) _
  · have hplaces : registry.map (·.order) = registry.map (·.id) :=
      List.map_congr_left fun r hr => (hall.placed r hr).order_of_nodup hnodup
    rw [hplaces]
    exact hs.tidy.uniqueIds

/-- A key is registered again, and another one after it. -/
def reshuffled : List PollOptions :=
  [{ key := "trains", interval := .ofSeconds 60 }, { key := "roads", interval := .ofSeconds 60 },
    { key := "trains", interval := .ofSeconds 5 }, { key := "ferries", interval := .ofSeconds 60 }]

theorem stagger_exact_reshuffled :
    let start := initial {} default ⟨[], []⟩
    let s := start.run (reshuffled.map .register)
    Lawful (fun s e => (s.granted e).isSome) start (reshuffled.map .register) ∧
    s.coordinator.registry.map (fun r => (r.key, r.order)) =
      [("roads", 1), ("trains", 1), ("ferries", 2)] ∧
    ∀ r ∈ s.coordinator.registry, reshuffled[r.id]? = some r.options ∧
      (∀ o ∈ reshuffled.drop (r.id + 1), o.key ≠ r.key) ∧
      r.order = ((keysOf (reshuffled.take r.id)).erase r.key).card ∧
      ∃ t, s.TimedBy r t ∧ t.deadline.nanos = (default : Clock).now.nanos +
        min r.order (Nat.pow 2 32 - 1) * start.coordinator.config.staggerStep.nanos :=
  have h : Lawful (fun s e => (s.granted e).isSome) (initial {} default ⟨[], []⟩)
      (reshuffled.map .register) := by decide +kernel
  ⟨h, by decide +kernel, (stagger_exact {} default ⟨[], []⟩ h).1⟩

/--
Two registrations share a place, and their first runs are due together: what is registered again
counts the same key as the one that came after it did.
-/
theorem stagger_shared :
    let start := initial {} default ⟨[], []⟩
    let calls := reshuffled.take 3
    let s := start.run (calls.map .register)
    Lawful (fun s e => (s.granted e).isSome) start (calls.map .register) ∧
    s.coordinator.registry.map (fun r => (r.id, r.key, r.order)) =
      [(1, "roads", 1), (2, "trains", 1)] ∧
    s.coordinator.timers.map (fun t => (t.poll, t.deadline)) =
      [(1, ⟨1000000000⟩), (2, ⟨1000000000⟩)] ∧
    ¬ (s.coordinator.registry.map (·.order)).Nodup := by
  decide +kernel

end System

end FeedPoller
