/-
What a registration comes to.

A call that registers a poll is refused for one of three reasons, and then nothing at all has
happened.  Otherwise an earlier registration of the key leaves with its timer and the new
one joins at the end.  What becomes of the newcomer depends on two things only: whether a gate
that applies to it is closed, and whether a run goes on that it has to wait for.  It may be
the run of its predecessor, or one that the predecessor has inherited; the books say that
there is no more than one.

Everybody else keeps the place and the timer.  The predecessor's timer may have gone off already
and wait for its turn, but once its registration is gone it begins nothing
(`Sound.not_started_of_retired`).
-/
import FeedPoller.Proofs.Poll.Refresh
import FeedPoller.Proofs.Poll.Reopening

namespace FeedPoller

namespace Coordinator

variable {c : Coordinator} {r q : Registration} {o : PollOptions} {awaited : Option Nat}

/-! ### Making room -/

/-- To make room for a key is to take it out of the registry, and its timers with it. -/
theorem Tidy.vacate_frame_eq (ht : c.Tidy) (key : String) :
    c.vacate key = { c with
      registry := c.registry.filter (·.key != key), timers := (c.vacate key).timers } := by
  obtain ⟨registry, timers, hframe⟩ := vacate_frame c key
  rw [← ht.vacate_eq, hframe]

/-- Whoever has another key keeps its timers. -/
theorem Tidy.vacate_timersOf (ht : c.Tidy) {key : String} (hq : q ∈ c.registry)
    (hkey : q.key ≠ key) : (c.vacate key).timersOf q.id = c.timersOf q.id := by
  obtain ⟨-, e, -⟩ | ⟨r, hr, hrkey, e, -⟩ := vacate_cases c key <;> rw [e]
  refine ht.timersOf_disarm_of_ne hr fun hid => hkey ?_
  rw [ht.uniqueIds.eq hq hr hid, hrkey]

/-! ### Joining -/

/-- What a newcomer is when it has joined, and what it finds. -/
structure Joined (c : Coordinator) (o : PollOptions) (awaited : Option Nat) (c' : Coordinator)
    (r : Registration) : Prop where
  shape : ∃ timers armed, c' = { c.join r with timers, armed }
  account : r.account = (c.newcomer o awaited).account
  unpaused : r.explicitlyPaused = false
  others : ∀ id, id ≠ c.nextId → c'.timersOf id = c.timersOf id
  gated : r.gateClosed c.gates = true →
    r.state = .paused ∧ r.pendingDelay = none ∧ r.timer = none
  waiting : r.gateClosed c.gates = false → r.inFlight = true →
    r.state = .running ∧ r.pendingDelay = some (c.staggerDelay r.order) ∧ r.timer = none
  scheduled : r.gateClosed c.gates = false → r.inFlight = false →
    r.state = .scheduled ∧ r.pendingDelay = none ∧
    ∀ due, c.clock.now.after? (c.staggerDelay r.order) = some due →
      ∃ t ∈ c'.timers, t.poll = r.id ∧ t.deadline = due

/-- A newcomer that a gate is closed to joins paused. -/
theorem joined_paused (hclosed : (c.newcomer o awaited).gateClosed c.gates = true) :
    Joined c o awaited (c.join { c.newcomer o awaited with state := .paused })
      { c.newcomer o awaited with state := .paused } where
  shape := ⟨c.timers, c.armed, rfl⟩
  account := rfl
  unpaused := rfl
  others := fun _ _ => rfl
  gated := fun _ => ⟨rfl, rfl, rfl⟩
  waiting := fun hopen _ => absurd (hclosed.symm.trans hopen) (by simp)
  scheduled := fun hopen _ => absurd (hclosed.symm.trans hopen) (by simp)

/-- A newcomer that has inherited a run joins with its request kept. -/
theorem joined_parked {id : Nat} (hopen : (c.newcomer o (some id)).gateClosed c.gates = false) :
    Joined c o (some id)
      (c.join ((c.newcomer o (some id)).parked (c.staggerDelay c.registry.length)))
      ((c.newcomer o (some id)).parked (c.staggerDelay c.registry.length)) where
  shape := ⟨c.timers, c.armed, rfl⟩
  account := rfl
  unpaused := rfl
  others := fun _ _ => rfl
  gated := fun hclosed => absurd (hopen.symm.trans hclosed) (by simp)
  waiting := fun _ _ => ⟨rfl, rfl, rfl⟩
  scheduled := fun _ hidle => absurd (show true = false from hidle) (by simp)

/-- Any other newcomer joins with a timer, if there is a name for its deadline. -/
theorem joined_scheduled (hfresh : ∀ q ∈ c.registry, q.id ≠ c.nextId)
    (hopen : (c.newcomer o none).gateClosed c.gates = false) :
    ∃ r, Joined c o none ((c.join (c.newcomer o none)).schedule (c.newcomer o none)
      (c.staggerDelay c.registry.length)) r := by
  have hclosed {r : Registration} {p : Prop} (hgate : r.gateClosed c.gates = false)
      (h : r.gateClosed c.gates = true) : p := absurd (hgate.symm.trans h) (by simp)
  cases hdue : c.clock.now.after? (c.staggerDelay c.registry.length) with
  | none =>
    have hnow : (c.join (c.newcomer o none)).clock.now.after? (c.staggerDelay c.registry.length) =
        none := hdue
    have hput : (c.join (c.newcomer o none)).put (c.newcomer o none).scheduled =
        c.join (c.newcomer o none).scheduled := put_join (r := c.newcomer o none) hfresh rfl
    rw [schedule, if_neg (by simp [newcomer]), hnow, disarm_of_none rfl, hput]
    refine ⟨(c.newcomer o none).scheduled, ⟨c.timers, c.armed, rfl⟩, rfl, rfl, fun _ _ => rfl,
      hclosed hopen, fun _ hflight => absurd (show false = true from hflight) (by simp),
      fun _ _ => ⟨rfl, rfl, ?_⟩⟩
    intro due hsome
    exact absurd (hdue.symm.trans hsome) (by simp)
  | some due =>
    rw [schedule_join (r := c.newcomer o none) hfresh rfl rfl hdue]
    refine ⟨{ (c.newcomer o none).scheduled with timer := some c.armed }, ⟨_, _, rfl⟩, rfl, rfl,
      fun id hid => ?_, hclosed hopen,
      fun _ hflight => absurd (show false = true from hflight) (by simp), fun _ _ => ⟨rfl, rfl, ?_⟩⟩
    · have hnot : (c.nextId == id) = false := beq_false_of_ne (Ne.symm hid)
      simp [timersOf, newcomer, List.filter_append, hnot]
    · intro due' hsome
      replace hsome : c.clock.now.after? (c.staggerDelay c.registry.length) = some due' := hsome
      rw [hdue] at hsome
      exact ⟨_, List.mem_append_right _ (List.mem_singleton.mpr rfl), rfl, Option.some.inj hsome⟩

/-- What a call that is not refused adds. -/
theorem append_joined (hfresh : ∀ q ∈ c.registry, q.id ≠ c.nextId) (o : PollOptions)
    (awaited : Option Nat) : ∃ r, Joined c o awaited (c.append o awaited).1 r := by
  have hput {r : Registration} (hid : r.id = c.nextId) :
      (c.join (c.newcomer o awaited)).put r = c.join r :=
    put_join (r := c.newcomer o awaited) hfresh hid
  obtain ⟨hclosed, e⟩ | ⟨hopen, e⟩ := append_cases c o awaited <;> rw [e]
  · rw [hput rfl]
    exact ⟨_, joined_paused hclosed⟩
  · cases awaited with
    | none => exact joined_scheduled hfresh hopen
    | some id =>
      have hflight : (c.newcomer o (some id)).inFlight = true := rfl
      rw [schedule, if_pos hflight, hput rfl]
      exact ⟨_, joined_parked hopen⟩

/-- The answer is a handle, unless the deadline of the first run is out of reach. -/
theorem append_answered (h : (c.newcomer o none).gateClosed c.gates = true ∨ awaited.isSome = true ∨
      (c.clock.now.after? (c.staggerDelay c.registry.length)).isSome = true) :
    (c.append o awaited).2 = .ok ⟨o.key, c.nextId⟩ := by
  rw [append_answer, if_neg]
  rcases h with hclosed | hsome | hnamed
  · simp [hclosed]
  · simp [hsome]
  · simp [Option.isNone_eq_false_iff.mpr hnamed]

/-! ### Refusals -/

theorem register_of_blank (h : Text.isBlank o.key = true) :
    c.register o = (c, .error .emptyKey) := by
  simp [register, PollOptions.fault?, h]

theorem register_of_zero (h : Text.isBlank o.key = false) (hzero : o.interval.isZero = true) :
    c.register o = (c, .error (.invalidInterval o.key)) := by
  simp [register, PollOptions.fault?, h, hzero]

theorem register_of_disposed (h : o.fault? = none) (hd : c.disposed = true) :
    c.register o = (c, .error .disposed) := by
  simp [register, h, hd]

end Coordinator

namespace System

open Coordinator

variable {s s' : System} {r q : Registration} {t : Timer} {o : PollOptions} {key : String}

/-! ### A run to wait for -/

/-- A run goes on for the registration of a key, its own or one that it has inherited. -/
def Occupied (s : System) (key : String) (run : Run) : Prop :=
  run ∈ s.runs ∧ ∃ q ∈ s.coordinator.registry, q.key = key ∧
    (q.id = run.id ∨ q.superseded = some run.id)

instance (s : System) (key : String) (run : Run) : Decidable (s.Occupied key run) :=
  inferInstanceAs (Decidable (run ∈ s.runs ∧ ∃ q ∈ s.coordinator.registry, q.key = key ∧
    (q.id = run.id ∨ q.superseded = some run.id)))

/-- A newcomer waits for the run that goes on for its key. -/
theorem Sound.awaitedFor_eq_some (hs : s.Sound) {id : Nat} :
    s.coordinator.awaitedFor key = some id ↔ ∃ run, s.Occupied key run ∧ run.id = id := by
  obtain ⟨hnone, -, hw⟩ | ⟨q, hq, hkey, -, hw⟩ := vacate_cases s.coordinator key <;> rw [hw]
  · refine iff_of_false (by simp) ?_
    rintro ⟨run, ⟨-, q, hq, hkey, -⟩, -⟩
    exact hnone q hq hkey
  · constructor
    · intro hid
      obtain ⟨hflight, hname⟩ := Registration.awaitedRun_eq_some.mp hid
      obtain ⟨run, hrun, hrid⟩ := (hs.books.marked q hq).mp hflight
      have hsame : run.id = id := hrid.trans hname
      refine ⟨run, ⟨hrun, q, hq, hkey, (hs.books.awaits_iff hq hrun).mp ?_⟩, hsame⟩
      rw [hid, hsame]
    · rintro ⟨run, ⟨hrun, p, hp, hpkey, hnames⟩, rfl⟩
      rw [hs.tidy.key_unique hq hp (hkey.trans hpkey.symm)]
      exact (hs.books.awaits_iff hp hrun).mpr hnames

/-! ### Timers of those who are gone -/

/-- The timer of a registration that is gone begins nothing, even if it has gone off already. -/
theorem Sound.not_started_of_retired (hs : s.Sound) (hk : s.coordinator.Known t)
    (hgone : s.Retired t.poll) (events : List Event) :
    t ∉ (s.run events).coordinator.timers ∧ t.number ∉ s.starts events := by
  have hforeign : ∀ id, s.Foreign t.number id := by
    intro id
    refine ⟨hk.number, fun u hu hn _ => ?_⟩
    obtain ⟨p, hp, hpid, -⟩ := hs.tidy.owner u hu
    rw [hk.same u hu hn] at hpid
    exact hgone.absent p hp hpid
  refine ⟨fun hin => ((hforeign t.poll).run hs events).poll t hin rfl rfl, fun hstart => ?_⟩
  rw [← beginnings_timers] at hstart
  obtain ⟨b, hb, hnumber⟩ := List.mem_map.mp hstart
  refine (hforeign b.run.id).none hs events b ?_ hnumber
  exact List.mem_filter.mpr ⟨hb, beq_self_eq_true _⟩

/-! ### The newcomer -/

/-- What a call comes to that is not refused. -/
structure Entered (s : System) (o : PollOptions) (s' : System) (r : Registration) : Prop where
  /-- The others keep everything, and their order; the newcomer is last. -/
  registry : s'.coordinator.registry = s.coordinator.registry.filter (·.key != o.key) ++ [r]
  others : ∀ q ∈ s.coordinator.registry, q.key ≠ o.key →
    s'.coordinator.timersOf q.id = s.coordinator.timersOf q.id
  frame : ∃ registry timers armed, s' = { s with coordinator := { s.coordinator with
    registry, timers, armed, nextId := s.coordinator.nextId + 1 } }
  id : r.id = s.coordinator.nextId
  options : r.options = o
  order : r.order = (s.coordinator.registry.filter (·.key != o.key)).length
  unpaused : r.explicitlyPaused = false
  uncounted : r.runs = 0 ∧ r.failures = 0 ∧ r.lastCompletedAt = none
  /-- It inherits the run that it has to wait for, whatever the gates say. -/
  heir : ∀ run, s.Occupied o.key run → r.inFlight = true ∧ r.superseded = some run.id
  idle : (∀ run, ¬ s.Occupied o.key run) → r.inFlight = false ∧ r.superseded = none
  gated : r.gateClosed s.coordinator.gates = true →
    r.state = .paused ∧ r.pendingDelay = none ∧ s'.Untimed r
  waiting : r.gateClosed s.coordinator.gates = false → r.inFlight = true →
    r.state = .running ∧ r.pendingDelay = some (s.coordinator.staggerDelay r.order) ∧ s'.Untimed r
  scheduled : r.gateClosed s.coordinator.gates = false → r.inFlight = false →
    r.state = .scheduled ∧ r.pendingDelay = none ∧
    ∀ due, s.now.after? (s.coordinator.staggerDelay r.order) = some due →
      (∃ t, s'.TimedBy r t ∧ t.deadline = due) ∧ due.nanos =
        s.now.nanos + min r.order (Nat.pow 2 32 - 1) * s.coordinator.config.staggerStep.nanos
  answered : r.gateClosed s.coordinator.gates = true ∨ r.inFlight = true ∨
      (s.now.after? (s.coordinator.staggerDelay r.order)).isSome = true →
    (s.coordinator.register o).2 = .ok r.handle

theorem Sound.entered (hs : s.Sound) (halive : s.alive = true) (hfault : o.fault? = none)
    (hd : s.coordinator.disposed = false) : ∃ r, Entered s o (s.step (.register o)) r := by
  have hs' := hs.step (.register o)
  obtain ⟨hbad, -⟩ | ⟨-, -, hregister⟩ := register_cases s.coordinator o
  · simp [hfault, hd] at hbad
  have hfresh : ∀ q ∈ s.coordinator.registry.filter (·.key != o.key), q.id ≠ s.coordinator.nextId :=
    fun q hq => Nat.ne_of_lt (hs.tidy.fresh q (List.mem_filter.mp hq).1)
  rw [hs.tidy.vacate_frame_eq] at hregister
  obtain ⟨r, hr⟩ := append_joined (c := { s.coordinator with
    registry := s.coordinator.registry.filter (·.key != o.key)
    timers := (s.coordinator.vacate o.key).timers }) hfresh o (s.coordinator.awaitedFor o.key)
  have hstep : s.step (.register o) = { s with coordinator := (s.coordinator.register o).1 } :=
    if_pos halive
  rw [← hregister] at hr
  rw [hstep] at hs' ⊢
  obtain ⟨timers, armed, hshape⟩ := hr.shape
  have hmem : r ∈ (s.coordinator.register o).1.registry := by
    rw [hshape]
    exact mem_join_self
  have hsuperseded : r.superseded = s.coordinator.awaitedFor o.key :=
    Registration.eq_of_account (·.superseded) (fun _ => rfl) hr.account
  have hflight : r.inFlight = (s.coordinator.awaitedFor o.key).isSome :=
    Registration.eq_of_account (·.inFlight) (fun _ => rfl) hr.account
  have hid : r.id = s.coordinator.nextId := Registration.id_of_account hr.account
  have hoptions : r.options = o :=
    Registration.eq_of_account (·.options) (fun _ => rfl) hr.account
  have horder : r.order = (s.coordinator.registry.filter (·.key != o.key)).length :=
    Registration.eq_of_account (·.order) (fun _ => rfl) hr.account
  refine ⟨r, {
    registry := by rw [hshape]; rfl
    others := fun q hq hkey => ?_
    frame := ⟨_, timers, armed, by rw [hshape]; rfl⟩
    id := hid
    options := hoptions
    order := horder
    unpaused := hr.unpaused
    uncounted := ⟨Registration.eq_of_account (·.runs) (fun _ => rfl) hr.account,
      Registration.eq_of_account (·.failures) (fun _ => rfl) hr.account,
      Registration.eq_of_account (·.lastCompletedAt) (fun _ => rfl) hr.account⟩
    heir := fun run hrun => ?_
    idle := fun hnone => ?_
    gated := fun hclosed => ?_
    waiting := fun hopen hbusy => ?_
    scheduled := fun hopen hidle => ?_
    answered := fun hreach => ?_ }⟩
  · exact (hr.others q.id (Nat.ne_of_lt (hs.tidy.fresh q hq))).trans
      (hs.tidy.vacate_timersOf hq hkey)
  · rw [hflight, hsuperseded, hs.awaitedFor_eq_some.mpr ⟨run, hrun, rfl⟩]
    exact ⟨rfl, rfl⟩
  · have hfree : s.coordinator.awaitedFor o.key = none := by
      refine Option.eq_none_iff_forall_ne_some.mpr fun id hid => ?_
      obtain ⟨run, hrun, -⟩ := hs.awaitedFor_eq_some.mp hid
      exact hnone run hrun
    rw [hflight, hsuperseded, hfree]
    exact ⟨rfl, rfl⟩
  · obtain ⟨hstate, hkept, hnone⟩ := hr.gated hclosed
    exact ⟨hstate, hkept, hs'.untimed hmem hnone⟩
  · obtain ⟨hstate, hkept, hnone⟩ := hr.waiting hopen hbusy
    exact ⟨hstate, hkept, hs'.untimed hmem hnone⟩
  · obtain ⟨hstate, hkept, hdues⟩ := hr.scheduled hopen hidle
    refine ⟨hstate, hkept, fun due hdue => ⟨?_, Instant.after_times hdue⟩⟩
    obtain ⟨t, ht, hpoll, hdeadline⟩ := hdues due hdue
    exact ⟨t, hs'.timedBy ht hmem hpoll.symm, hdeadline⟩
  · have hhandle : r.handle = ⟨o.key, s.coordinator.nextId⟩ := by
      rw [Registration.handle, Registration.key, hoptions, hid]
    rw [hhandle, hregister]
    refine append_answered ?_
    rw [Registration.gateClosed, hoptions, hflight, horder] at hreach
    exact hreach

/-- Whoever had the key before is gone for good. -/
theorem Entered.retired (h : Entered s o s' r) (hs : s.Sound) (hq : q ∈ s.coordinator.registry)
    (hkey : q.key = o.key) : s'.Retired q.id := by
  have hnext : s'.coordinator.nextId = s.coordinator.nextId + 1 := by
    obtain ⟨_, _, _, e⟩ := h.frame
    rw [e]
  have hissued := hs.tidy.fresh q hq
  refine ⟨by omega, fun p hp hid => ?_⟩
  rw [h.registry] at hp
  rcases List.mem_append.mp hp with hp | hp
  · obtain ⟨hp, hne⟩ := List.mem_filter.mp hp
    rw [hs.tidy.uniqueIds.eq hp hq hid] at hne
    simp [hkey] at hne
  · rw [List.mem_singleton.mp hp, h.id] at hid
    omega

/-! ### Every call -/

theorem step_register_of_refused (h : (s.coordinator.register o).1 = s.coordinator) :
    s.step (.register o) = s := by
  show (s.call fun c => (c.register o).1) = s
  by_cases halive : s.alive = true
  · rw [call, if_pos halive, h]
  · rw [call, if_neg halive]

/--
**What a call that registers a poll comes to.**  Whatever has happened: a blank key is refused
first, then an interval of nothing, then any call to a coordinator that has been disposed of, and
a refusal changes nothing at all.  Any other call puts the newcomer behind the others, who
keep everything, and an earlier registration of the key is gone.  No run of that begins any more,
and its timer begins none, even if it has gone off and waits for its turn.
-/
theorem register_exact (config : CoordinatorConfig) (clock : Clock) (draws : Draws)
    (events : List Event) (o : PollOptions) :
    let s := (initial config clock draws).run events
    let c := s.coordinator
    let s' := s.step (.register o)
    (Text.isBlank o.key = true → c.register o = (c, .error .emptyKey) ∧ s' = s) ∧
    (Text.isBlank o.key = false → o.interval.isZero = true →
      c.register o = (c, .error (.invalidInterval o.key)) ∧ s' = s) ∧
    (Text.isBlank o.key = false → o.interval.isZero = false → c.disposed = true →
      c.register o = (c, .error .disposed) ∧ s' = s) ∧
    (Text.isBlank o.key = false → o.interval.isZero = false → c.disposed = false →
      s.alive = true → ∃ r, Entered s o s' r ∧
        ∀ q ∈ c.registry, q.key = o.key → ∀ more,
          (∀ n run, ((s'.run more).fire n).2 = some run → run.id ≠ q.id) ∧
          ∀ t ∈ c.timers ++ s.woken, t.poll = q.id →
            t ∉ (s'.run more).coordinator.timers ∧ t.number ∉ s'.starts more) := by
  intro s c s'
  have hs : s.Sound := sound_run config clock draws events
  have hs' : s'.Sound := hs.step (.register o)
  have hrefused {e : RegisterError} (h : c.register o = (c, .error e)) :
      c.register o = (c, .error e) ∧ s' = s :=
    ⟨h, step_register_of_refused (congrArg Prod.fst h)⟩
  have hfault (hblank : Text.isBlank o.key = false) (hzero : o.interval.isZero = false) :
      o.fault? = none := by
    simp [PollOptions.fault?, hblank, hzero]
  refine ⟨fun hblank => hrefused (register_of_blank hblank),
    fun hblank hzero => hrefused (register_of_zero hblank hzero),
    fun hblank hzero hd => hrefused (register_of_disposed (hfault hblank hzero) hd),
    fun hblank hzero hd halive => ?_⟩
  obtain ⟨r, hr⟩ := hs.entered halive (hfault hblank hzero) hd
  refine ⟨r, hr, fun q hq hkey more => ⟨((hr.retired hs hq hkey).run hs' more).2, ?_⟩⟩
  intro t ht hpoll
  have hknown : c.Known t := by
    rcases List.mem_append.mp ht with ht | ht
    · exact hs.tidy.known ht
    · exact (hs.woken t ht).1
  have hadvances : Advances c s'.coordinator := by
    obtain ⟨hbad, -⟩ | ⟨-, -, e⟩ := register_cases c o
    · simp [hfault hblank hzero, hd] at hbad
    · have hstep : s'.coordinator = (c.register o).1 := congrArg coordinator (if_pos halive)
      rw [hstep, e]
      exact (register_spec hs.tidy hd).2.1
  exact hs'.not_started_of_retired (hknown.advances hadvances) (hpoll ▸ hr.retired hs hq hkey) more

/-- A poll is replaced during its run, and the timer of another one waits for its turn. -/
def crowded : List Event :=
  [.register { key := "feed", interval := .ofSeconds 60 },
    .register { key := "inbox", interval := .ofSeconds 5 }, .fire 0, .elapse (.ofSeconds 1),
    .register { key := "feed", interval := .ofSeconds 30 }, .wake 1]

/-- The newcomer waits for a run that its predecessor has inherited. -/
theorem register_exact_crowded :
    let s := (initial {} default ⟨[], []⟩).run crowded
    let disposed := (initial {} default ⟨[], []⟩).run (crowded ++ [.dispose])
    let feed : PollOptions := { key := "feed", interval := .ofSeconds 10 }
    let inbox : PollOptions := { key := "inbox", interval := .ofSeconds 7 }
    s.coordinator.register { key := "\u2003", interval := .zero } =
      (s.coordinator, .error .emptyKey) ∧
    s.coordinator.register { key := "inbox", interval := .zero } =
      (s.coordinator, .error (.invalidInterval "inbox")) ∧
    disposed.coordinator.register feed = (disposed.coordinator, .error .disposed) ∧
    (∃ r, Entered s feed (s.step (.register feed)) r ∧ r.superseded = some 0 ∧
      r.state = .running) ∧
    s.woken.map (fun t => (t.number, t.poll)) = [(1, 1)] ∧
    ∀ more, 1 ∉ (s.step (.register inbox)).starts more := by
  intro s disposed feed inbox
  obtain ⟨hblank, -, -, -⟩ := register_exact {} default ⟨[], []⟩ crowded
    { key := "\u2003", interval := .zero }
  obtain ⟨-, hzero, -, -⟩ := register_exact {} default ⟨[], []⟩ crowded
    { key := "inbox", interval := .zero }
  obtain ⟨-, -, hdisposed, -⟩ := register_exact {} default ⟨[], []⟩ (crowded ++ [.dispose]) feed
  obtain ⟨-, -, -, hfeed⟩ := register_exact {} default ⟨[], []⟩ crowded feed
  obtain ⟨-, -, -, hinbox⟩ := register_exact {} default ⟨[], []⟩ crowded inbox
  have hwoken : s.woken.map (fun t => (t.number, t.poll)) = [(1, 1)] := by decide +kernel
  have hoccupied : s.Occupied "feed" ⟨0, "feed"⟩ := by decide +kernel
  have hopen : s.coordinator.gates = {} := by decide +kernel
  have hdis : s.coordinator.disposed = false := by decide +kernel
  have halive : s.alive = true := by decide +kernel
  obtain ⟨r, hr, -⟩ := hfeed (by decide +kernel) (by decide +kernel) hdis halive
  obtain ⟨hflight, hsuperseded⟩ := hr.heir ⟨0, "feed"⟩ hoccupied
  have hgate : r.gateClosed s.coordinator.gates = false := by
    simp [Registration.gateClosed, hopen]
  refine ⟨(hblank (by decide +kernel)).1, (hzero (by decide +kernel) rfl).1,
    (hdisposed (by decide +kernel) (by decide +kernel) (by decide +kernel)).1,
    ⟨r, hr, hsuperseded, (hr.waiting hgate hflight).1⟩, hwoken, fun more => ?_⟩
  obtain ⟨p, -, hgone⟩ := hinbox (by decide +kernel) (by decide +kernel) hdis halive
  obtain ⟨q, hq, hkey, hid⟩ : ∃ q ∈ s.coordinator.registry, q.key = "inbox" ∧ q.id = 1 := by
    decide +kernel
  obtain ⟨t, ht, hn⟩ := List.mem_map.mp (hwoken ▸ List.mem_singleton.mpr rfl :
    (1, 1) ∈ s.woken.map fun t => (t.number, t.poll))
  obtain ⟨hnumber, hpoll⟩ := Prod.mk.inj hn
  have hnever := ((hgone q hq hkey more).2 t (List.mem_append_right _ ht) (hpoll.trans hid.symm)).2
  rwa [hnumber] at hnever

end System

end FeedPoller
