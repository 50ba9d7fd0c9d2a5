/-
What the status command prints as data, read once more.

A client that takes a report may have been lenient about it: fields in any order, fields that mean
nothing to it or are missing, times of any zone, numbers spelled in any way.  What it prints is
the report in the one form that reports are written in.  Each reader of a field reads again what is
written for what it has read (`Rereads`), whatever it was read from, and this passes from the fields
to polls and to lists of them.  Depth is no concern: data stands as deep in what is printed as it
stood in what was read.

Doubles are all that can be lost.  So what is printed can always be read, and it is read as the same
report exactly if every double in it is the value of what is printed for it.
-/
import FeedPoller.Command.Query
import FeedPoller.Proofs.Json.Exact
import FeedPoller.Proofs.Report.Readable
import FeedPoller.Proofs.Time.Readings

namespace FeedPoller

open Json (Value Document)

namespace Decode

variable {α β : Type}

/-! ### Lists that are read -/

theorem mem_of_mapM {read : α → Option β} {l : List α} {l' : List β} (h : l.mapM read = some l')
    {b : β} (hb : b ∈ l') : ∃ a, read a = some b := by
  induction l generalizing l' with
  | nil =>
      obtain rfl : [] = l' := by simpa using h
      exact absurd hb (by simp)
  | cons a l ih =>
      rw [List.mapM_cons] at h
      obtain ⟨first, hfirst, h⟩ := Option.bind_eq_some_iff.mp h
      obtain ⟨rest, hrest, h⟩ := Option.bind_eq_some_iff.mp h
      obtain rfl : first :: rest = l' := Option.some.inj h
      rcases List.mem_cons.mp hb with rfl | hb
      · exact ⟨a, hfirst⟩
      · exact ih hrest hb

/-- A list comes back exactly if each of its items does. -/
theorem mapM_self_iff {read : β → Option α} {write : α → β} {l : List α} :
    (l.map write).mapM read = some l ↔ ∀ a ∈ l, read (write a) = some a := by
  induction l with
  | nil => simp
  | cons a l ih =>
      rw [List.map_cons, List.mapM_cons, List.forall_mem_cons, ← ih]
      cases read (write a) with
      | none => simp
      | some b => cases (l.map write).mapM read <;> simp

/-- A record that is put together around one of its fields is the old one if the field is. -/
theorem map_eq_self_iff {o : Option β} {put : β → α} {a : α} (get : α → β)
    (hget : ∀ b, get (put b) = b) (hput : put (get a) = a) :
    o.map put = some a ↔ o = some (get a) := by
  constructor
  · intro h
    obtain ⟨b, rfl, rfl⟩ := Option.map_eq_some_iff.mp h
    rw [hget]
  · intro h
    rw [h, Option.map_some, hput]

/-! ### The readers of fields -/

theorem exists_of_required {read : Document → Option α} {slot : Slot Document} {a : α}
    (h : slot.required read = some a) : ∃ d, read d = some a := by
  cases slot with
  | given d => exact ⟨d, h⟩
  | unnamed | cut => exact absurd h (by simp [Slot.required])

/-- What a reader has read it reads again from what is written for it. -/
def Rereads (read : Document → Option α) (write : α → Value) : Prop :=
  ∀ d a, read d = some a → read (write a).document = some a

section Fields

variable {read : Document → Option α} {write : α → Value}

theorem rereads_text : Rereads text .string := fun _ _ _ => rfl

theorem rereads_dateTime : Rereads dateTime DateTime.encode := by
  intro d t h
  obtain ⟨s, -, h⟩ := Option.bind_eq_some_iff.mp h
  rw [dateTime_document, Rfc3339.read_write_of_read h]

/-- A count that is read fits 64 bits, so it is read again. -/
theorem rereads_count : Rereads count .nat := by
  intro d n h
  obtain ⟨k, hk, h⟩ := Option.bind_eq_some_iff.mp h
  have hle : k ≤ Json.Number.largest64 := by
    unfold integer at hk
    split at hk
    · split at hk
      · next hliteral =>
          obtain rfl := Option.some.inj hk
          exact (Json.Number.held_ofLiteral hliteral).2
      · exact absurd hk (by simp)
    · exact absurd hk (by simp)
  split at h
  · obtain rfl := Option.some.inj h
    exact count_of_le (by omega)
  · exact absurd h (by simp)

theorem Rereads.nullable (h : Rereads read write) (hnull : ∀ a, (write a).document ≠ .null) :
    Rereads (nullable read) (Value.ofOption write) := by
  intro d a ha
  cases a with
  | none => rfl
  | some a =>
      unfold Decode.nullable at ha
      split at ha
      · exact absurd ha (by simp)
      · obtain ⟨b, hread, hb⟩ := Option.map_eq_some_iff.mp ha
        obtain rfl := Option.some.inj hb
        unfold Decode.nullable Value.ofOption
        split
        · next heq => exact absurd heq (hnull b)
        · rw [h _ b hread, Option.map_some]

theorem Rereads.required (h : Rereads read write) {slot : Slot Document} {a : α}
    (ha : slot.required read = some a) : read (write a).document = some a := by
  obtain ⟨d, hd⟩ := exists_of_required ha
  exact h d a hd

/-- A field that was left out is written as `null`. -/
theorem Rereads.optional (h : Rereads (Decode.nullable read) (Value.ofOption write))
    {slot : Slot Document} {a : Option α} (ha : slot.optional (Decode.nullable read) = some a) :
    Decode.nullable read (Value.ofOption write a).document = some a := by
  cases slot with
  | given d => exact h d a ha
  | unnamed =>
      obtain rfl : none = a := Option.some.inj ha
      rfl
  | cut => exact absurd ha (by simp [Slot.optional])

theorem Rereads.list (h : Rereads read write) :
    Rereads (list read) fun l => .array (l.map write) := by
  intro d l hl
  unfold Decode.list at hl
  split at hl
  · rw [Value.document, Value.documents_eq_map, List.map_map]
    refine mapM_self_iff.mpr fun a ha => ?_
    obtain ⟨d, hd⟩ := mem_of_mapM hl ha
    exact h d a hd
  · exact absurd hl (by simp)

end Fields

theorem rereads_error : Rereads (nullable text) (Value.ofOption .string) :=
  rereads_text.nullable fun _ => by simp [Value.document]

theorem rereads_time : Rereads (nullable dateTime) (Value.ofOption DateTime.encode) :=
  rereads_dateTime.nullable fun _ => by simp [DateTime.encode, Value.document]

/-- The time of a last run that there was not is left out. -/
theorem lastSlot_of_defaulting {slot : Slot Document} {last : Option DateTime}
    (h : slot.defaulting none (nullable dateTime) = some last) :
    (lastSlot last).defaulting none (nullable dateTime) = some last := by
  cases last with
  | none => rfl
  | some t =>
      cases slot with
      | given d =>
          simp only [lastSlot, Slot.defaulting] at h ⊢
          exact rereads_time d (some t) h
      | unnamed | cut => exact absurd h (by simp [Slot.defaulting])

/-! ### Polls -/

theorem rereads_pollStatus : Rereads pollStatus PollStatus.encode := by
  intro d p h
  unfold pollStatus at h
  obtain ⟨slots, -, h⟩ := Option.bind_eq_some_iff.mp h
  split at h
  · obtain ⟨key, -, h⟩ := Option.bind_eq_some_iff.mp h
    obtain ⟨state, -, h⟩ := Option.bind_eq_some_iff.mp h
    obtain ⟨isPaused, -, h⟩ := Option.bind_eq_some_iff.mp h
    obtain ⟨explicitlyPaused, -, h⟩ := Option.bind_eq_some_iff.mp h
    obtain ⟨requiresAuth, -, h⟩ := Option.bind_eq_some_iff.mp h
    obtain ⟨pauseWhenBackendDown, -, h⟩ := Option.bind_eq_some_iff.mp h
    obtain ⟨interval, hinterval, h⟩ := Option.bind_eq_some_iff.mp h
    obtain ⟨order, horder, h⟩ := Option.bind_eq_some_iff.mp h
    obtain ⟨runs, hruns, h⟩ := Option.bind_eq_some_iff.mp h
    obtain ⟨failures, hfailures, h⟩ := Option.bind_eq_some_iff.mp h
    obtain ⟨last, hlast, h⟩ := Option.bind_eq_some_iff.mp h
    obtain rfl := Option.some.inj h
    unfold pollStatus
    rw [slots_pollStatus]
    simp only [Option.bind_eq_bind, Option.bind_some, Slot.required, bool, text, pollState_name,
      rereads_count.required hinterval, rereads_count.required horder, rereads_count.required hruns,
      rereads_count.required hfailures, lastSlot_of_defaulting hlast]
  · exact absurd h (by simp)

/-! ### Feeds -/

/-- Data that a feed has was read as data, and is not `null`, which is read as no data. -/
theorem data_of_optional {depth : Nat} {slot : Slot Document} {data : Option Value}
    (h : slot.optional (nullable (Value.ofDocument depth)) = some data) {v : Value}
    (hv : data = some v) : v ≠ .null ∧ ∃ d, Value.ofDocument depth d = some v := by
  subst hv
  cases slot with
  | given d =>
      simp only [Slot.optional, nullable] at h
      split at h
      · exact absurd h (by simp)
      · next hd =>
          obtain ⟨w, hread, hw⟩ := Option.map_eq_some_iff.mp h
          obtain rfl := Option.some.inj hw
          refine ⟨?_, d, hread⟩
          rintro rfl
          cases d with
          | null => exact hd rfl
          | bool | number | string => simp [Value.ofDocument] at hread
          | array | object => cases depth <;> simp [Value.ofDocument] at hread
  | unnamed | cut => exact absurd h (by simp [Slot.optional])

/-- A feed that has been read, with `depth` levels for its data. -/
structure Received (depth : Nat) (f : FeedState) : Prop where
  data : ∀ v, f.data = some v → v ≠ .null ∧ ∃ d, Value.ofDocument depth d = some v
  /-- Of what is written for the feed only its data can come back otherwise, or not at all. -/
  rest : feedState depth f.encode.document =
    (nullable (Value.ofDocument depth) (f.data.getD .null).document).map fun data => { f with data }

theorem received_of_feedState {depth : Nat} {d : Document} {f : FeedState}
    (h : feedState depth d = some f) : Received depth f := by
  unfold feedState at h
  obtain ⟨slots, -, h⟩ := Option.bind_eq_some_iff.mp h
  split at h
  · obtain ⟨data, hdata, h⟩ := Option.bind_eq_some_iff.mp h
    obtain ⟨loading, -, h⟩ := Option.bind_eq_some_iff.mp h
    obtain ⟨isRefreshing, -, h⟩ := Option.bind_eq_some_iff.mp h
    obtain ⟨error, herror, h⟩ := Option.bind_eq_some_iff.mp h
    obtain ⟨updatedAt, hupdatedAt, h⟩ := Option.bind_eq_some_iff.mp h
    obtain rfl := Option.some.inj h
    refine ⟨fun v hv => data_of_optional hdata hv, ?_⟩
    unfold feedState
    rw [slots_feedState]
    simp only [Option.bind_eq_bind, Option.bind_some, Slot.optional, Slot.required, bool,
      rereads_error.optional herror, rereads_time.optional hupdatedAt]
    exact Option.map_eq_bind.symm
  · exact absurd h (by simp)

/-- Data that was read comes back exactly if all its doubles do, and something comes back for it. -/
theorem Received.nullable_data {depth : Nat} {f : FeedState} (h : Received depth f) :
    (nullable (Value.ofDocument depth) (f.data.getD .null).document).isSome ∧
      (nullable (Value.ofDocument depth) (f.data.getD .null).document = some f.data ↔
        ∀ v, f.data = some v → ∀ x ∈ v.doubles, (Json.Number.float x).Lossless) := by
  cases hdata : f.data with
  | none => simp [Value.document, nullable]
  | some v =>
      obtain ⟨hnull, d, hd⟩ := h.data v hdata
      obtain ⟨hneat, hdepth⟩ := Value.neat_ofDocument hd
      have hread : nullable (Value.ofDocument depth) v.document =
          (Value.ofDocument depth v.document).map some := by
        unfold nullable
        split
        · next heq => cases v <;> simp [Value.document] at heq hnull
        · rfl
      rw [Option.getD_some, hread, Option.isSome_map, hneat.held.ofDocument_isSome]
      refine ⟨hdepth, ?_⟩
      have hself := hneat.ofDocument_self_iff depth hdepth
      simpa using hself

theorem Received.feedState_isSome {depth : Nat} {f : FeedState} (h : Received depth f) :
    (feedState depth f.encode.document).isSome := by
  rw [h.rest, Option.isSome_map]
  exact h.nullable_data.1

theorem Received.feedState_self_iff {depth : Nat} {f : FeedState} (h : Received depth f) :
    feedState depth f.encode.document = some f ↔
      ∀ v, f.data = some v → ∀ x ∈ v.doubles, (Json.Number.float x).Lossless := by
  rw [h.rest, ← h.nullable_data.2]
  exact map_eq_self_iff FeedState.data (fun _ => rfl) rfl

/-! ### Tables -/

/-- A table whose names are sorted comes back exactly if each of its values does. -/
theorem table_self_iff {read : Document → Option α} {write : α → Value} {fs : List (String × α)}
    (hs : Fields.Sorted fs) :
    table read (Value.object (fs.map fun f => (f.1, write f.2))).document = some fs ↔
      ∀ f ∈ fs, read (write f.2).document = some f.2 := by
  have hsorted : ∀ gs,
      (fs.map fun f => (some f.1, (write f.2).document)).mapM (entry read) = some gs →
      Fields.Sorted gs := by
    intro gs hgs
    have hkept : gs = fs.map fun f => (f.1, (read (write f.2).document).getD f.2) := by
      refine mapM_eq (fun f _ g hg => ?_) hgs
      rw [entry_some] at hg
      obtain ⟨a, ha, rfl⟩ := Option.map_eq_some_iff.mp hg
      rw [ha, Option.getD_some]
    rw [hkept]
    exact List.pairwise_map.mpr hs
  have hself : ((fs.map fun f => (some f.1, (write f.2).document)).mapM (entry read)).map
      Fields.ofList = some fs ↔
        (fs.map fun f => (some f.1, (write f.2).document)).mapM (entry read) = some fs := by
    constructor
    · intro h
      obtain ⟨gs, hgs, hfs⟩ := Option.map_eq_some_iff.mp h
      rw [hgs, ← hfs, Fields.ofList_of_sorted (hsorted gs hgs)]
    · intro h
      rw [h, Option.map_some, Fields.ofList_of_sorted hs]
  rw [table_document, hself, mapM_self_iff]
  refine forall₂_congr fun f _ => ?_
  rw [entry_some]
  cases read (write f.2).document <;> simp [Prod.ext_iff]

/-! ### Reports -/

/-- What is known of a report that has been read. -/
structure Accepted (r : StatusReport) : Prop where
  sorted : Fields.Sorted r.feeds
  feeds : ∀ f ∈ r.feeds, Received (Json.depthLimit - 3) f.2
  /-- Of what is written for the report only its feeds can come back otherwise, or not at all. -/
  rest : statusReport r.encode.document =
    (table (feedState (Json.depthLimit - 3))
      (Value.object (r.feeds.map fun f => (f.1, f.2.encode))).document).map fun feeds =>
        { r with feeds }

theorem received_of_table {depth : Nat} {d : Document} {fs : List (String × FeedState)}
    (h : table (feedState depth) d = some fs) :
    Fields.Sorted fs ∧ ∀ f ∈ fs, Received depth f.2 := by
  unfold table at h
  split at h
  · obtain ⟨gs, hgs, rfl⟩ := Option.map_eq_some_iff.mp h
    refine ⟨Fields.sorted_ofList gs, fun f hf => ?_⟩
    obtain ⟨field, hfield⟩ := mem_of_mapM hgs (Fields.mem_ofList hf)
    obtain ⟨name, -, hfield⟩ := Option.bind_eq_some_iff.mp hfield
    obtain ⟨state, hstate, hfield⟩ := Option.bind_eq_some_iff.mp hfield
    rw [← Option.some.inj hfield]
    exact received_of_feedState hstate
  · exact absurd h (by simp)

theorem accepted_of_statusReport {d : Document} {r : StatusReport} (h : statusReport d = some r) :
    Accepted r := by
  unfold statusReport at h
  obtain ⟨slots, -, h⟩ := Option.bind_eq_some_iff.mp h
  split at h
  · obtain ⟨backendAvailable, -, h⟩ := Option.bind_eq_some_iff.mp h
    obtain ⟨authenticated, -, h⟩ := Option.bind_eq_some_iff.mp h
    obtain ⟨polls, hpolls, h⟩ := Option.bind_eq_some_iff.mp h
    obtain ⟨feeds, hfeeds, h⟩ := Option.bind_eq_some_iff.mp h
    obtain ⟨time, htime, h⟩ := Option.bind_eq_some_iff.mp h
    obtain rfl := Option.some.inj h
    obtain ⟨dfeeds, hfeeds⟩ := exists_of_required hfeeds
    obtain ⟨dtime, htime⟩ := exists_of_required htime
    obtain ⟨hsorted, hreceived⟩ := received_of_table hfeeds
    have hseconds :
        (integer (Value.int time.seconds).document).bind DateTime.ofSeconds? = some time := by
      obtain ⟨n, -, htime⟩ := Option.bind_eq_some_iff.mp htime
      obtain ⟨rfl, hrange⟩ := DateTime.eq_of_ofSeconds? htime
      exact seconds_of_range hrange
    refine ⟨hsorted, hreceived, ?_⟩
    unfold statusReport
    rw [slots_statusReport]
    simp only [Option.bind_eq_bind, Option.bind_some, Slot.required, bool,
      rereads_pollStatus.list.required hpolls, hseconds]
    exact Option.map_eq_bind.symm
  · exact absurd h (by simp)

/-- Something is read for what is written, however the doubles come back. -/
theorem Accepted.isSome {r : StatusReport} (h : Accepted r) :
    (statusReport r.encode.document).isSome := by
  rw [h.rest, Option.isSome_map, table_isSome_iff]
  exact fun f hf => (h.feeds f hf).feedState_isSome

end Decode

namespace StatusReport

/-- Every double in the data of a feed is the value of what is printed for it. -/
def Exact (r : StatusReport) : Prop :=
  ∀ f ∈ r.feeds, ∀ v, f.2.data = some v → ∀ x ∈ v.doubles, (Json.Number.float x).Lossless

instance (r : StatusReport) : Decidable r.Exact :=
  decidable_of_iff (∀ f ∈ r.feeds, f.2.data.all (fun v =>
      v.doubles.all fun x => (Json.Number.float x).Lossless) = true)
    (forall₂_congr fun f _ => by cases f.2.data <;> simp)

variable {r : StatusReport}

theorem self_iff_exact (h : Decode.Accepted r) :
    Decode.statusReport r.encode.document = some r ↔ r.Exact := by
  have hfeeds : Decode.statusReport r.encode.document = some r ↔
      Decode.table (Decode.feedState (Json.depthLimit - 3))
        (Value.object (r.feeds.map fun f => (f.1, f.2.encode))).document = some r.feeds := by
    rw [h.rest]
    exact Decode.map_eq_self_iff StatusReport.feeds (fun _ => rfl) rfl
  rw [hfeeds, Decode.table_self_iff h.sorted]
  exact forall₂_congr fun f hf => (h.feeds f hf).feedState_self_iff

theorem spelled_of_accepted (h : Decode.Accepted r) :
    ∀ f ∈ r.feeds, ∀ v, f.2.data = some v → v.Spelled := by
  intro f hf v hv
  obtain ⟨-, d, hd⟩ := (h.feeds f hf).data v hv
  exact (Value.neat_ofDocument hd).1.held.spelled

/--
**What the status command prints as data is the report that it was given.**  Whatever form the
daemon's answer has, if the client accepts it, then it also accepts what it prints for it as data,
and reads the same report there exactly if every double in it is the value of what is printed
for it.
-/
theorem printed_rereads {body : String} (h : read body = some r) (now : DateTime) :
    ∃ text, statusCommand (some body) true now = .ok [text] ∧ (read text).isSome ∧
      (read text = some r ↔ r.Exact) := by
  obtain ⟨d, -, hd⟩ := Option.bind_eq_some_iff.mp h
  have haccepted := Decode.accepted_of_statusReport hd
  have hread : read r.encode.pretty = Decode.statusReport r.encode.document :=
    read_pretty (spelled_of_accepted haccepted)
  refine ⟨r.encode.pretty, ?_, ?_, ?_⟩
  · unfold statusCommand
    dsimp only
    rw [h]
    rfl
  · rw [hread]
    exact haccepted.isSome
  · rw [hread]
    exact self_iff_exact haccepted

/--
A report with fields in disorder and one that means nothing, a poll and two feeds in lists, a state
in a record, a leap second in a zone of its own, a name that comes twice, numbers of every kind,
and data that is as deep as data may be in a report.
-/
def foreign : List Char :=
  ["\x7b\"generated_at\": -5, \"since\": [[1e999, \"\\ud800\"]],\n",
    "\"polls\": [[\"l\\u00edne \\\"8\\\"\\n\", \x7b\"running\": null\x7d, true,\n",
    "  false, true, false, 0, 3, 18446744073709551615, 0,\n",
    "  \"2016-12-31 23:59:60.12345+05:30\"]],\n",
    "\"feeds\": \x7b\"trains\": [null, true, false, null, null],\n",
    "  \"buses\": \x7b\"is_refreshing\": false, \"loading\": false,\n",
    "    \"data\": \x7b\"k\": 1, \"k\": [-0, 1.50, 1e2, -7, \x7b\x7d]\x7d\x7d,\n",
    "  \"boats\": ["].flatMap String.toList ++
  List.replicate 124 '[' ++ List.replicate 124 ']' ++
  [", false, true, \"timeout\",\n", "  \"2024-01-01t00:00:05.5z\"]\x7d,\n",
    "\"authenticated\": false, \"backend_available\": true\x7d\n"].flatMap String.toList

theorem printed_rereads_foreign : ∃ r text, read (.ofList foreign) = some r ∧
    statusCommand (some (.ofList foreign)) true default = .ok [text] ∧ read text = some r := by
  have hread : (read (.ofList foreign)).any (fun r => decide r.Exact) = true := by
    rw [read, Document.ofText, String.toList_ofList]
    decide +kernel
  obtain ⟨r, hr, hexact⟩ := (Option.any_eq_true _ _).mp hread
  obtain ⟨text, hprinted, -, hself⟩ := printed_rereads hr default
  exact ⟨r, text, hr, hprinted, hself.mpr (of_decide_eq_true hexact)⟩

end StatusReport

end FeedPoller
