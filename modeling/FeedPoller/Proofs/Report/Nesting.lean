/-
Reports that hide everything.

What a feed brings was read as data, so it holds numbers that there are and is nested at most as
deeply as data may be.  This is kept by every event, and so are the dates: none lies before the
first one of the wall clock or behind the present.  A client can therefore read every report
that a daemon makes, unless some feed has brought data that fits the limit alone and no
longer does three levels further in.

Such a feed hides the whole report, the polls and all the other feeds included.
-/
import FeedPoller.Command.Query
import FeedPoller.Feed.Http
import FeedPoller.Proofs.Report.Delivery
import FeedPoller.Proofs.Report.Readable

namespace FeedPoller

open Json (Value Document)

/-! ### What a feed brings -/

/-- Data that some feed can bring, over some link and with something in the token's file. -/
def Json.Value.Fetched (v : Value) : Prop :=
  ∃ (feed : HttpFeed) (link : Http.Link) (token : FileContent), feed.fetch link token = .ok v

theorem HttpFeed.read_of_receive {feed : HttpFeed} {reply : Http.Reply} {v : Value}
    (h : feed.receive reply = .ok v) : ∃ text, Value.read text = some v := by
  cases reply with
  | failed causes => exact absurd h (by simp [receive])
  | response status body =>
      unfold receive at h
      dsimp only at h
      split at h
      · split at h
        · exact absurd h (by simp)
        · next w hread =>
            obtain rfl : w = v := by simpa using h
            obtain ⟨text, -, hread⟩ := Option.bind_eq_some_iff.mp hread
            exact ⟨text, hread⟩
      · exact absurd h (by simp)

/-- A feed that is asked for without a token. -/
def HttpFeed.trains : HttpFeed := { key := "trains", url := "https://feeds.example.com/trains" }

namespace Json.Value

theorem Fetched.held {v : Value} (h : v.Fetched) : v.Held ∧ v.depth ≤ depthLimit := by
  obtain ⟨feed, link, token, h⟩ := h
  unfold HttpFeed.fetch at h
  split at h
  · exact absurd h (by simp)
  · obtain ⟨text, hread⟩ := HttpFeed.read_of_receive h
    obtain ⟨d, -, hread⟩ := Option.bind_eq_some_iff.mp hread
    exact held_ofDocument hread

/-- An array in an array, and so on, around `null`. -/
def nested : Nat → Value
  | 0 => .null
  | n + 1 => .array [nested n]

theorem depth_nested (n : Nat) : (nested n).depth = n := by
  induction n with
  | zero => rfl
  | succ n ih => rw [nested, depth, itemDepth, itemDepth, ih, Nat.max_zero]

theorem lawful_nested (n : Nat) : (nested n).Lawful := by
  induction n with
  | zero => exact .null
  | succ n ih =>
      refine .array fun v hv => ?_
      rw [List.mem_singleton.mp hv]
      exact ih

/-- A feed can bring all data that is kept as data is, to the full depth. -/
theorem Lawful.fetched {v : Value} (h : v.Lawful) (hdepth : v.depth ≤ depthLimit) : v.Fetched := by
  have hrequest : ∃ request, HttpFeed.trains.request .missing = .ok request := ⟨_, rfl⟩
  have htext : String.fromUTF8? v.compact.toUTF8 = some v.compact := by
    unfold String.fromUTF8?
    exact dif_pos v.compact.isValidUTF8
  have hread : Value.read v.compact = some v := by
    unfold Value.read
    rw [h.spelled.ofText_compact, Option.bind_eq_bind, Option.bind_some, h.ofDocument,
      if_pos hdepth]
  obtain ⟨request, hrequest⟩ := hrequest
  refine ⟨.trains, fun _ => .response 200 (some v.compact.toUTF8), .missing, ?_⟩
  unfold HttpFeed.fetch
  rw [hrequest]
  unfold HttpFeed.receive
  dsimp only
  rw [if_pos (by decide), Option.bind_some, htext, Option.bind_some, hread]

end Json.Value

/-! ### Every history -/

namespace FeedSystem

variable {s : FeedSystem} {e : FeedEvent}

/-- What is dated has been dated by the wall clock, and all data has been read as data. -/
structure Recorded (s : FeedSystem) : Prop where
  sound : s.system.Sound
  dates : s.system.Recorded
  store : s.store.Keeps Value.Held s.wall.Shown

theorem Recorded.step (h : s.Recorded) (he : ∀ v, e.data? = some v → v.Fetched) :
    (s.step e).Recorded := by
  have hwall : s.wall.seconds ≤ (s.step e).wall.seconds := by
    rw [wall, wall, step_system]
    exact h.sound.wall_le_run _
  have hstore : (s.step e).store.Keeps Value.Held s.wall.Shown :=
    (s.storeChange e).keeps h.store h.dates.wall fun v hv => (he v hv).held.1
  refine ⟨?_, ?_, hstore.mono fun t ht => ht.mono hwall⟩
  · rw [step_system]
    exact h.sound.run _
  · rw [step_system]
    exact h.sound.recorded_run h.dates _

theorem Recorded.run {events : List FeedEvent} (h : s.Recorded)
    (he : ∀ e ∈ events, ∀ v, e.data? = some v → v.Fetched) : (s.run events).Recorded :=
  invariant_run Recorded.step h he

theorem recorded_initial (config : CoordinatorConfig) {clock : Clock} (draws : Draws)
    (hordinary : clock.wall.Ordinary) (hfirst : DateTime.firstSecond ≤ clock.wall.seconds) :
    (initial config clock draws).Recorded where
  sound := System.sound_initial config clock draws
  dates := ⟨⟨hordinary, hfirst, Int.le_refl _⟩, fun _ hr => absurd hr List.not_mem_nil⟩
  store := fun _ hf => absurd hf List.not_mem_nil

end FeedSystem

/-- A report as a machine can hold it: counts have 64 bits, and there is a limit to dates. -/
structure StatusReport.Holdable (r : StatusReport) : Prop where
  counts : ∀ p ∈ r.polls, p.Fits
  made : r.generatedAt.seconds ≤ DateTime.lastSecond

instance (r : StatusReport) : Decidable r.Holdable :=
  decidable_of_iff ((∀ p ∈ r.polls, p.Fits) ∧ r.generatedAt.seconds ≤ DateTime.lastSecond)
    ⟨fun ⟨hcounts, hmade⟩ => ⟨hcounts, hmade⟩, fun h => ⟨h.counts, h.made⟩⟩

theorem FeedSystem.Recorded.regular {s : FeedSystem} (h : s.Recorded) (hr : s.report.Holdable) :
    s.report.Regular := by
  have hkept : ∀ t, s.wall.Shown t → t.Kept :=
    fun t ht => ⟨ht.ordinary, ht.first, Int.le_trans ht.last hr.made⟩
  refine ⟨hr.counts, fun p hp t ht => ?_, h.store.mono hkept, hkept _ h.dates.wall⟩
  obtain ⟨r, hreg, rfl⟩ := List.mem_map.mp hp
  exact hkept t (h.dates.registry r hreg t ht)

/-! ### The status command -/

theorem statusCommand_of_isSome {body : String} (h : (StatusReport.read body).isSome) (json : Bool)
    (now : DateTime) : ∃ printed, statusCommand (some body) json now = .ok printed := by
  obtain ⟨report, hreport⟩ := Option.isSome_iff_exists.mp h
  unfold statusCommand
  dsimp only
  rw [hreport]
  exact ⟨_, rfl⟩

theorem statusCommand_of_not_isSome {body : String} (h : ¬ (StatusReport.read body).isSome)
    (json : Bool) (now : DateTime) :
    statusCommand (some body) json now = .error .unreadableReport := by
  unfold statusCommand
  dsimp only
  rw [Option.not_isSome_iff_eq_none.mp h]

namespace StatusReport

/--
**Only depth hides a report.**  Whatever has happened before, and whatever the feeds have brought,
the status command succeeds on the report that the daemon makes if no data in it is nested more
deeply than the report leaves levels for; and if some data is, it fails and shows nothing.
-/
theorem statusCommand_of_history (config : CoordinatorConfig) (clock : Clock) (draws : Draws)
    (events : List FeedEvent) (hordinary : clock.wall.Ordinary)
    (hfirst : DateTime.firstSecond ≤ clock.wall.seconds)
    (hdata : ∀ e ∈ events, ∀ v, e.data? = some v → v.Fetched) :
    let sent := ((FeedSystem.initial config clock draws).run events).report
    sent.Holdable → ∀ json now,
      (sent.Shallow → ∃ printed, statusCommand (some sent.encode.compact) json now = .ok printed) ∧
        (¬ sent.Shallow →
          statusCommand (some sent.encode.compact) json now = .error .unreadableReport) := by
  intro sent hholdable json now
  have hregular : sent.Regular :=
    ((FeedSystem.recorded_initial config draws hordinary hfirst).run hdata).regular hholdable
  rw [← hregular.read_isSome_iff]
  exact ⟨fun h => statusCommand_of_isSome h json now,
    fun h => statusCommand_of_not_isSome h json now⟩

theorem fetched_delivered : ∀ e ∈ delivered, ∀ v, e.data? = some v → v.Fetched := by
  have hdepth : ∀ e ∈ delivered, e.data?.all (·.depth ≤ Json.depthLimit) = true := by decide +kernel
  intro e he v hv
  have hle := hdepth e he
  rw [hv] at hle
  exact ((lawful_delivered e he).data v hv).fetched (by simpa using hle)

theorem statusCommand_of_history_delivered : ∃ printed,
    statusCommand (some ((FeedSystem.initial {} default ⟨[], []⟩).run
      delivered).report.encode.compact) false default = .ok printed :=
  (statusCommand_of_history {} default ⟨[], []⟩ delivered (by decide) (by decide) fetched_delivered
    (by decide +kernel) false default).1 (by decide +kernel)

/-- A feed that brings an array in an array, and so on, beside a poll that is no feed. -/
def buried (depth : Nat) : List FeedEvent :=
  [.registerFeed { key := "trains", interval := .ofSeconds 10 },
    .poll (.register { key := "keep-alive", interval := .ofMillis 1500 }),
    .poll (.fire 0), .beginFetch 0, .endFetch 0 (.data (Value.nested depth))]

/-- One feed brings data of 125 levels, which is not too deep; nothing is told of any poll. -/
theorem statusCommand_of_buried : (Value.nested 125).Fetched ∧
    statusCommand (some ((FeedSystem.initial {} default ⟨[], []⟩).run
      (buried 125)).report.encode.compact) false default = .error .unreadableReport := by
  have hfetched : (Value.nested 125).Fetched :=
    (Value.lawful_nested 125).fetched (by rw [Value.depth_nested]; decide)
  have hdata : ∀ e ∈ buried 125, ∀ v, e.data? = some v → v.Fetched := by
    intro e he v hv
    simp only [buried, List.mem_cons, List.not_mem_nil, or_false] at he
    rcases he with rfl | rfl | rfl | rfl | rfl
    case inr.inr.inr.inr => exact Option.some.inj hv ▸ hfetched
    all_goals exact absurd hv (by simp [FeedEvent.data?])
  have hregular : ((FeedSystem.initial {} default ⟨[], []⟩).run (buried 125)).report.Regular :=
    ((FeedSystem.recorded_initial {} ⟨[], []⟩ (by decide) (by decide)).run hdata).regular
      (by decide +kernel)
  refine ⟨hfetched, statusCommand_of_not_isSome ?_ false default⟩
  rw [hregular.read_isSome_iff]
  decide +kernel

end StatusReport

end FeedPoller
