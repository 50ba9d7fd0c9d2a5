/-
What a client learns from a report.

Every report that a daemon can make has the shape that survives being sent: its feeds are sorted by
key since the store keeps them so, its data is what fetches have brought, and its
dates come from the wall clock.  Each of these is kept by every event.

So a client that can read a report at all reads what was sent, with the date cut to
seconds, unless some feed has brought `null`.  That feed has data, and so is said to be refreshed
while it is fetched again; the client reads the same feed as one without data.
-/
import FeedPoller.Proofs.Feed.Contents
import FeedPoller.Proofs.Feed.History
import FeedPoller.Proofs.Poll.Dates
import FeedPoller.Proofs.Report.Wire

namespace FeedPoller

open Json (Value)

/-! ### The store -/

namespace FeedStore

/-- Feeds are sorted by key, and the state of each is lawful. -/
structure Lawful (s : FeedStore) : Prop where
  sorted : Fields.Sorted s.entries
  states : ∀ f ∈ s.entries, f.2.Lawful

end FeedStore

/-! ### Every history -/

/-- An event that brings data only as data is kept. -/
def FeedEvent.Lawful : FeedEvent → Prop
  | .endFetch _ (.data v) => v.Lawful
  | .write (.complete _ v) => v.Lawful
  | _ => True

theorem FeedEvent.Lawful.data {e : FeedEvent} (h : e.Lawful) :
    ∀ v, e.data? = some v → v.Lawful := by
  intro v hv
  unfold FeedEvent.data? at hv
  split at hv
  · exact Option.some.inj hv ▸ h
  · exact Option.some.inj hv ▸ h
  · exact absurd hv (by simp)

namespace FeedSystem

variable {s : FeedSystem} {e : FeedEvent}

theorem lawful_storeAfter (h : s.store.Lawful) (hwall : s.wall.Ordinary) (he : e.Lawful) :
    (s.storeAfter e).Lawful where
  sorted := (s.storeChange e).sorted h.sorted
  states := by
    have hstore : s.store.Keeps Value.Lawful DateTime.Ordinary :=
      fun f hf => ⟨(h.states f hf).data, (h.states f hf).updatedAt⟩
    have hafter := (s.storeChange e).keeps hstore hwall he.data
    exact fun f hf => ⟨(hafter f hf).data, (hafter f hf).updatedAt⟩

/-- The report that is made of the system as it is. -/
def report (s : FeedSystem) : StatusReport := .make s.system.coordinator s.store

/-- What makes every report lawful. -/
structure Reportable (s : FeedSystem) : Prop where
  sound : s.system.Sound
  dated : s.system.Dated
  store : s.store.Lawful

theorem Reportable.step (h : s.Reportable) (he : e.Lawful) : (s.step e).Reportable := by
  have hstore : (s.step e).store.Lawful := lawful_storeAfter h.store h.dated.wall he
  refine ⟨?_, ?_, hstore⟩
  · rw [step_system]
    exact h.sound.run _
  · rw [step_system]
    exact h.sound.dated_run h.dated _

theorem Reportable.run {events : List FeedEvent} (h : s.Reportable) (he : ∀ e ∈ events, e.Lawful) :
    (s.run events).Reportable :=
  invariant_run Reportable.step h he

theorem reportable_initial (config : CoordinatorConfig) {clock : Clock} (draws : Draws)
    (hclock : clock.wall.Ordinary) : (initial config clock draws).Reportable where
  sound := System.sound_initial config clock draws
  dated := ⟨hclock, fun _ hr => absurd hr List.not_mem_nil⟩
  store := ⟨List.Pairwise.nil, fun _ hf => absurd hf List.not_mem_nil⟩

theorem Reportable.report (h : s.Reportable) : s.report.Lawful where
  polls := by
    intro p hp
    obtain ⟨r, hr, rfl⟩ := List.mem_map.mp hp
    exact h.dated.registry r hr
  feeds := h.store.states
  sorted := h.store.sorted

end FeedSystem

/-! ### What is lost -/

theorem FeedState.received_eq_self_iff {f : FeedState} : f.received = f ↔ f.data ≠ some .null := by
  constructor
  · intro h hnull
    have hdata := congrArg FeedState.data h
    rw [hnull] at hdata
    unfold FeedState.received at hdata
    rw [hnull] at hdata
    exact absurd hdata (by simp)
  · intro h
    unfold FeedState.received
    split
    · next hnull => exact absurd hnull h
    · rfl

namespace StatusReport

variable {r : StatusReport}

/-- The report with its date cut to whole seconds. -/
def inSeconds (r : StatusReport) : StatusReport :=
  { r with generatedAt := ⟨r.generatedAt.seconds, 0⟩ }

/-- The date is all that is lost of a report in which no feed has `null` for its data. -/
theorem received_eq_inSeconds_iff :
    r.received = r.inSeconds ↔ ∀ f ∈ r.feeds, f.2.data ≠ some .null := by
  have hfeeds : r.received = r.inSeconds ↔
      r.feeds.map (fun f => (f.1, f.2.received)) = r.feeds := by
    constructor
    · exact fun h => congrArg StatusReport.feeds h
    · intro h
      unfold received inSeconds
      rw [h]
  have hmap : r.feeds.map (fun f => (f.1, f.2.received)) = r.feeds ↔
      ∀ f ∈ r.feeds, (f.1, f.2.received) = f := by
    have h := List.map_inj_left (l := r.feeds) (f := fun f => (f.1, f.2.received)) (g := id)
    rwa [List.map_id] at h
  rw [hfeeds, hmap]
  refine forall₂_congr fun f _ => ?_
  rw [← FeedState.received_eq_self_iff]
  exact ⟨fun h => congrArg Prod.snd h, fun h => Prod.ext rfl h⟩

/--
**What a client reads is what was sent.**  Whatever has happened before, if the client can read the
report that a daemon prints, it has the report in every field but for the date, which is cut to
whole seconds, and for data that is `null`, which is read as no data; so it has the
report as it was sent, in whole seconds, exactly if no feed has `null` for its data.
-/
theorem read_of_history (config : CoordinatorConfig) (clock : Clock) (draws : Draws)
    (events : List FeedEvent) (hclock : clock.wall.Ordinary) (hdata : ∀ e ∈ events, e.Lawful) :
    let sent := ((FeedSystem.initial config clock draws).run events).report
    ∀ received, read sent.encode.compact = some received →
      received = sent.received ∧
        (received = sent.inSeconds ↔ ∀ f ∈ sent.feeds, f.2.data ≠ some .null) := by
  intro sent received hread
  have hs : ((FeedSystem.initial config clock draws).run events).Reportable :=
    (FeedSystem.reportable_initial config draws hclock).run hdata
  obtain rfl := hs.report.read hread
  exact ⟨rfl, received_eq_inSeconds_iff⟩

/-- A feed that has brought data and failed since, and a poll that is no feed. -/
def delivered : List FeedEvent :=
  [.registerFeed { key := "trains", interval := .ofSeconds 10 },
    .poll (.register { key := "keep-alive", interval := .ofMillis 1500, requiresAuth := true }),
    .poll (.fire 0), .beginFetch 0,
    .endFetch 0 (.data (.object [("delays", .array [.number (.integer (-3)), .null]),
      ("line \"8\"\n", .number (.float ⟨false, 6755399441055744, -52⟩))])),
    .poll (.elapse (.ofMillis 250)), .finishFetch 0, .poll (.elapse (.ofSeconds 10)),
    .poll (.fire 2), .beginFetch 0,
    .endFetch 0 (.failed ["Failed to fetch feed 'trains'", "timeout\t\u0001"]),
    .poll .pauseAuthenticated]

theorem lawful_delivered : ∀ e ∈ delivered, e.Lawful := by
  intro e he
  simp only [delivered, List.mem_cons, List.not_mem_nil, or_false] at he
  rcases he with rfl | rfl | rfl | rfl | rfl | rfl | rfl | rfl | rfl | rfl | rfl | rfl
  case inr.inr.inr.inr.inl =>
    refine .object (by decide) fun field hfield => ?_
    simp only [List.mem_cons, List.not_mem_nil, or_false] at hfield
    rcases hfield with rfl | rfl
    · refine .array fun v hv => ?_
      simp only [List.mem_cons, List.not_mem_nil, or_false] at hv
      rcases hv with rfl | rfl
      · exact .number (by decide +kernel)
      · exact .null
    · exact .number (by decide +kernel)
  all_goals trivial

theorem read_of_history_delivered :
    ∃ received, read ((FeedSystem.initial {} default ⟨[], []⟩).run
        delivered).report.encode.compact = some received ∧
      received = ((FeedSystem.initial {} default ⟨[], []⟩).run delivered).report.inSeconds := by
  have hclock : (default : Clock).wall.Ordinary := by decide
  have hlawful : ((FeedSystem.initial {} default ⟨[], []⟩).run delivered).report.Lawful :=
    ((FeedSystem.reportable_initial {} ⟨[], []⟩ hclock).run lawful_delivered).report
  have hread : (read ((FeedSystem.initial {} default ⟨[], []⟩).run
      delivered).report.encode.compact).isSome = true := by
    rw [hlawful.read_eq]
    decide +kernel
  have hnull : ∀ f ∈ ((FeedSystem.initial {} default ⟨[], []⟩).run delivered).report.feeds,
      f.2.data ≠ some .null := by
    have hall : ∀ f ∈ ((FeedSystem.initial {} default ⟨[], []⟩).run delivered).report.feeds,
        f.2.received.hasData = f.2.hasData := by decide +kernel
    intro f hf hnull
    have hdata := hall f hf
    simp [FeedState.received, FeedState.hasData, hnull] at hdata
  obtain ⟨received, hreceived⟩ := Option.isSome_iff_exists.mp hread
  have h := read_of_history {} default ⟨[], []⟩ delivered hclock lawful_delivered received hreceived
  exact ⟨received, hreceived, h.2.mpr hnull⟩

/-- A feed that has brought `null` and is fetched again. -/
def nullified : List FeedEvent :=
  [.registerFeed { key := "trains", interval := .ofSeconds 10 }, .poll (.fire 0), .beginFetch 0,
    .endFetch 0 (.data .null), .finishFetch 0, .poll (.elapse (.ofSeconds 10)), .poll (.fire 1),
    .beginFetch 0]

/-- The feed is said to be refreshed, with the last result still there; the client has none. -/
theorem null_is_lost :
    ((FeedSystem.initial {} default ⟨[], []⟩).run nullified).report.feeds.map
      (fun f => (f.2.hasData, f.2.isRefreshing)) = [(true, true)] ∧
    (read ((FeedSystem.initial {} default ⟨[], []⟩).run nullified).report.encode.compact).map
      (fun r => r.feeds.map fun f => (f.2.hasData, f.2.isRefreshing)) = some [(false, true)] := by
  have hdata : ∀ e ∈ nullified, e.Lawful := by
    simp [nullified, FeedEvent.Lawful, Value.Lawful.null]
  have hlawful : ((FeedSystem.initial {} default ⟨[], []⟩).run nullified).report.Lawful :=
    ((FeedSystem.reportable_initial {} ⟨[], []⟩ (by decide)).run hdata).report
  rw [hlawful.read_eq]
  decide +kernel

end StatusReport

end FeedPoller
