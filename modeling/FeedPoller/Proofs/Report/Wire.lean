/-
A report that is sent and read.

A report is written as data, printed, and read by the rules for records.  Every field is read by a
reader of its own, and each of these undoes what was done to write the field: what it gives
back, if anything, is what was written.  Two things are lost on the way.  The report is
dated in whole seconds, and a feed whose data is `null` is read like one without data.
-/
import FeedPoller.Proofs.Json.RoundTrip
import FeedPoller.Proofs.Time.Rfc3339
import FeedPoller.Report.Decode
import FeedPoller.Report.Encode

namespace FeedPoller

open Json (Value Document)

/-! ### What is kept -/

/-- A state whose data is kept as data is, and whose time is no leap second. -/
structure FeedState.Lawful (f : FeedState) : Prop where
  data : ∀ v, f.data = some v → v.Lawful
  updatedAt : ∀ t, f.updatedAt = some t → t.Ordinary

/-- A status whose time is no leap second. -/
def PollStatus.Lawful (p : PollStatus) : Prop :=
  ∀ t, p.lastCompletedAt = some t → t.Ordinary

/-- A report whose parts are lawful and whose feeds are sorted, each once. -/
structure StatusReport.Lawful (r : StatusReport) : Prop where
  polls : ∀ p ∈ r.polls, p.Lawful
  feeds : ∀ f ∈ r.feeds, f.2.Lawful
  sorted : Fields.Sorted r.feeds

/-- The state as it is read: `null` is no data. -/
def FeedState.received (f : FeedState) : FeedState :=
  { f with data := match f.data with
      | some .null => none
      | data => data }

/-- The report as it is read. -/
def StatusReport.received (r : StatusReport) : StatusReport :=
  { r with
    feeds := r.feeds.map fun f => (f.1, f.2.received)
    generatedAt := ⟨r.generatedAt.seconds, 0⟩ }

/-! ### The readers of fields -/

namespace Decode

theorem integer_number {n m : Int} (h : integer (Value.int n).document = some m) : m = n := by
  unfold integer at h
  rw [Value.int, Value.document, Json.Number.literal_integer] at h
  dsimp only at h
  split at h
  · next k hk => exact Option.some.inj h ▸ Json.Number.eq_of_ofLiteral hk
  · exact absurd h (by simp)

theorem count_nat {n m : Nat} (h : count (Value.nat n).document = some m) : m = n := by
  unfold count at h
  rw [Option.bind_eq_bind] at h
  obtain ⟨k, hk, h⟩ := Option.bind_eq_some_iff.mp h
  have hkn : k = (n : Int) := integer_number hk
  rw [hkn, if_pos (Int.natCast_nonneg n), Int.toNat_natCast] at h
  exact (Option.some.inj h).symm

theorem pollState_name (p : PollState) : pollState (.string (some p.name)) = some p := by
  cases p <;> decide

/-- A date-time is read from its text. -/
theorem dateTime_document (t : DateTime) :
    dateTime t.encode.document = Rfc3339.read (Rfc3339.write t) := by
  unfold dateTime DateTime.encode
  simp only [Value.document, text, Option.bind_eq_bind, Option.bind_some]

theorem dateTime_encode {t u : DateTime} (ht : t.Ordinary)
    (h : dateTime t.encode.document = some u) : u = t := by
  rw [dateTime_document] at h
  exact Rfc3339.eq_of_read_write ht.writable h

/-- A value that may be missing is read as it is if it is read as it is when it is there. -/
theorem nullable_ofOption {α : Type} {read : Document → Option α} {write : α → Value}
    {a b : Option α} (hnull : ∀ x, a = some x → (write x).document ≠ .null)
    (hread : ∀ x y, a = some x → read (write x).document = some y → y = x)
    (h : nullable read (Value.ofOption write a).document = some b) : b = a := by
  cases a with
  | none => exact (Option.some.inj h).symm
  | some x =>
      unfold nullable Value.ofOption at h
      split at h
      · next heq => exact absurd heq (hnull x rfl)
      · obtain ⟨y, hy, rfl⟩ := Option.map_eq_some_iff.mp h
        rw [hread x y rfl hy]

/-- A list is read item by item. -/
theorem mapM_eq {α β γ : Type} {read : β → Option γ} {write : α → β} {kept : α → γ} :
    ∀ {l : List α} {l' : List γ}, (∀ a ∈ l, ∀ c, read (write a) = some c → c = kept a) →
      (l.map write).mapM read = some l' → l' = l.map kept := by
  intro l
  induction l with
  | nil =>
      intro l' _ h
      simpa using h.symm
  | cons a l ih =>
      intro l' hread h
      rw [List.map_cons, List.mapM_cons] at h
      obtain ⟨c, hc, h⟩ := Option.bind_eq_some_iff.mp h
      obtain ⟨cs, hcs, h⟩ := Option.bind_eq_some_iff.mp h
      rw [← Option.some.inj h, hread a (by simp) c hc,
        ih (fun b hb => hread b (by simp [hb])) hcs, List.map_cons]

/-! ### Polls and feeds -/

theorem data_encode {f : FeedState} {depth : Nat} (hf : f.Lawful) {data : Option Value}
    (h : nullable (Value.ofDocument depth) (f.data.getD .null).document = some data) :
    data = f.received.data := by
  have hread : ∀ v : Value, v.Lawful → v ≠ .null →
      nullable (Value.ofDocument depth) v.document = some data → data = some v := by
    intro v hv hne h
    unfold nullable at h
    split at h
    · next hnull =>
        cases v <;> first | exact absurd rfl hne | exact absurd hnull (by simp [Value.document])
    · obtain ⟨w, hw, rfl⟩ := Option.map_eq_some_iff.mp h
      rw [hv.ofDocument] at hw
      split at hw
      · exact congrArg some (Option.some.inj hw).symm
      · exact absurd hw (by simp)
  unfold FeedState.received
  cases hdata : f.data with
  | none =>
      rw [hdata] at h
      exact (Option.some.inj h).symm
  | some v =>
      rw [hdata] at h
      by_cases hnull : v = .null
      · subst hnull
        exact (Option.some.inj h).symm
      · rw [hread v (hf.data v hdata) hnull h]
        cases v <;> first | exact absurd rfl hnull | rfl

/-- The fields of a feed, as they are written. -/
theorem slots_feedState (f : FeedState) :
    slots? f.encode.document ["data", "loading", "is_refreshing", "error", "updated_at"]
      = some [.given (f.data.getD .null).document, .given (.bool f.loading),
          .given (.bool f.isRefreshing), .given (Value.ofOption .string f.error).document,
          .given (Value.ofOption DateTime.encode f.updatedAt).document] := rfl

theorem feedState_encode {f g : FeedState} {depth : Nat} (hf : f.Lawful)
    (h : feedState depth f.encode.document = some g) : g = f.received := by
  unfold feedState at h
  rw [slots_feedState] at h
  simp only [Option.bind_eq_bind, Option.bind_some, Slot.optional, Slot.required, bool] at h
  obtain ⟨data, hdata, h⟩ := Option.bind_eq_some_iff.mp h
  obtain ⟨error, herror, h⟩ := Option.bind_eq_some_iff.mp h
  obtain ⟨updatedAt, hupdated, h⟩ := Option.bind_eq_some_iff.mp h
  have herror' : error = f.error :=
    nullable_ofOption (fun _ _ => by simp [Value.document])
      (fun x y _ hy => (Option.some.inj hy).symm) herror
  have hupdated' : updatedAt = f.updatedAt :=
    nullable_ofOption (fun _ _ => by simp [DateTime.encode, Value.document])
      (fun x y hx hy => dateTime_encode (hf.updatedAt x hx) hy) hupdated
  rw [← Option.some.inj h, data_encode hf hdata, herror', hupdated']
  rfl

/-- What there is for the time of a poll's last run. -/
def lastSlot : Option DateTime → Slot Document
  | none => .unnamed
  | some t => .given (Value.ofOption DateTime.encode (some t)).document

/-- The fields of a poll, as they are written. -/
theorem slots_pollStatus (p : PollStatus) :
    slots? p.encode.document ["key", "state", "is_paused", "explicitly_paused", "requires_auth",
        "pause_when_backend_down", "interval_ms", "registration_order", "runs", "failures",
        "last_completed_at"]
      = some [.given (.string (some p.key)), .given (.string (some p.state.name)),
          .given (.bool p.isPaused), .given (.bool p.explicitlyPaused),
          .given (.bool p.requiresAuth), .given (.bool p.pauseWhenBackendDown),
          .given (Value.nat p.intervalMillis).document,
          .given (Value.nat p.registrationOrder).document, .given (Value.nat p.runs).document,
          .given (Value.nat p.failures).document, lastSlot p.lastCompletedAt] := by
  unfold PollStatus.encode
  cases p.lastCompletedAt with
  | none => rfl
  | some t => rfl

theorem lastSlot_encode {last t : Option DateTime} (hlast : ∀ u, last = some u → u.Ordinary)
    (h : (lastSlot last).defaulting none (nullable dateTime) = some t) : t = last := by
  cases last with
  | none => exact (Option.some.inj h).symm
  | some u =>
      simp only [lastSlot, Slot.defaulting] at h
      exact nullable_ofOption (fun _ _ => by simp [DateTime.encode, Value.document])
        (fun x y hx hy => dateTime_encode (hlast x hx) hy) h

theorem pollStatus_encode {p q : PollStatus} (hp : p.Lawful)
    (h : pollStatus p.encode.document = some q) : q = p := by
  unfold pollStatus at h
  rw [slots_pollStatus] at h
  simp only [Option.bind_eq_bind, Option.bind_some, Slot.required, bool, text, pollState_name] at h
  obtain ⟨interval, hinterval, h⟩ := Option.bind_eq_some_iff.mp h
  obtain ⟨order, horder, h⟩ := Option.bind_eq_some_iff.mp h
  obtain ⟨runs, hruns, h⟩ := Option.bind_eq_some_iff.mp h
  obtain ⟨failures, hfailures, h⟩ := Option.bind_eq_some_iff.mp h
  obtain ⟨time, htime, h⟩ := Option.bind_eq_some_iff.mp h
  rw [← Option.some.inj h, count_nat hinterval, count_nat horder, count_nat hruns,
    count_nat hfailures, lastSlot_encode hp htime]

/-! ### Reports -/

theorem polls_encode {ps qs : List PollStatus} (hps : ∀ p ∈ ps, p.Lawful)
    (h : list pollStatus (Value.array (ps.map PollStatus.encode)).document = some qs) :
    qs = ps := by
  rw [Value.document, Value.documents_eq_map, List.map_map] at h
  have hread : ∀ p ∈ ps, ∀ q,
      pollStatus ((Value.document ∘ PollStatus.encode) p) = some q → q = id p :=
    fun p hp q hq => pollStatus_encode (hps p hp) hq
  rw [mapM_eq hread h, List.map_id]

/-- A value of a table, with its name. -/
def entry {α : Type} (read : Document → Option α) (field : Option String × Document) :
    Option (String × α) := do
  some (← field.1, ← read field.2)

theorem entry_some {α : Type} (read : Document → Option α) (name : String) (d : Document) :
    entry read (some name, d) = (read d).map fun a => (name, a) :=
  Option.map_eq_bind.symm

/-- A table is read value by value from what is written for it. -/
theorem table_document {α : Type} (read : Document → Option α) (write : α → Value)
    (fs : List (String × α)) :
    table read (Value.object (fs.map fun f => (f.1, write f.2))).document =
      ((fs.map fun f => (some f.1, (write f.2).document)).mapM (entry read)).map Fields.ofList := by
  rw [Value.document, Value.documentFields_eq_map, List.map_map]
  rfl

theorem feeds_encode {fs gs : List (String × FeedState)} {depth : Nat}
    (hfs : ∀ f ∈ fs, f.2.Lawful) (hsorted : Fields.Sorted fs)
    (h : table (feedState depth) (Value.object (fs.map fun f => (f.1, f.2.encode))).document =
      some gs) :
    gs = fs.map fun f => (f.1, f.2.received) := by
  rw [table_document] at h
  obtain ⟨fields, hfields, rfl⟩ := Option.map_eq_some_iff.mp h
  have hread : ∀ f ∈ fs, ∀ g, entry (feedState depth) (some f.1, f.2.encode.document) = some g →
      g = (f.1, f.2.received) := by
    intro f hf g hg
    rw [entry_some] at hg
    obtain ⟨state, hstate, rfl⟩ := Option.map_eq_some_iff.mp hg
    rw [feedState_encode (hfs f hf) hstate]
  rw [mapM_eq hread hfields]
  exact Fields.ofList_of_sorted (List.pairwise_map.mpr hsorted)

/-- The fields of a report, as they are written. -/
theorem slots_statusReport (r : StatusReport) :
    slots? r.encode.document
        ["backend_available", "authenticated", "polls", "feeds", "generated_at"]
      = some [.given (.bool r.backendAvailable), .given (.bool r.authenticated),
          .given (Value.array (r.polls.map PollStatus.encode)).document,
          .given (Value.object (r.feeds.map fun f => (f.1, f.2.encode))).document,
          .given (Value.int r.generatedAt.seconds).document] := rfl

theorem statusReport_encode {r r' : StatusReport} (hr : r.Lawful)
    (h : statusReport r.encode.document = some r') : r' = r.received := by
  unfold statusReport at h
  rw [slots_statusReport] at h
  simp only [Option.bind_eq_bind, Option.bind_some, Slot.required, bool] at h
  obtain ⟨polls, hpolls, h⟩ := Option.bind_eq_some_iff.mp h
  obtain ⟨feeds, hfeeds, h⟩ := Option.bind_eq_some_iff.mp h
  obtain ⟨time, htime, h⟩ := Option.bind_eq_some_iff.mp h
  have hseconds : time = ⟨r.generatedAt.seconds, 0⟩ := by
    obtain ⟨n, hn, htime⟩ := Option.bind_eq_some_iff.mp htime
    rw [integer_number hn] at htime
    exact (DateTime.eq_of_ofSeconds? htime).1
  rw [← Option.some.inj h, polls_encode hr.polls hpolls, feeds_encode hr.feeds hr.sorted hfeeds,
    hseconds]
  rfl

end Decode

/-! ### Printing a report -/

theorem spelled_nat (n : Nat) : (Value.nat n).Spelled := .number (Json.Number.spelled_integer n)

theorem spelled_ofOption {α : Type} {write : α → Value} (h : ∀ a, (write a).Spelled)
    (a : Option α) :
    (Value.ofOption write a).Spelled := by
  cases a with
  | none => exact .null
  | some a => exact h a

theorem FeedState.spelled {f : FeedState} (hf : ∀ v, f.data = some v → v.Spelled) :
    f.encode.Spelled := by
  have hdata : (f.data.getD .null).Spelled := by
    cases hd : f.data with
    | none => exact .null
    | some v => exact hf v hd
  refine .object fun field hfield => ?_
  simp only [List.mem_cons, List.not_mem_nil, or_false] at hfield
  rcases hfield with rfl | rfl | rfl | rfl | rfl
  · exact hdata
  · exact .bool _
  · exact .bool _
  · exact spelled_ofOption (fun _ => .string _) _
  · exact spelled_ofOption (fun _ => .string _) _

theorem PollStatus.spelled (p : PollStatus) : p.encode.Spelled := by
  refine .object fun field hfield => ?_
  rcases List.mem_append.mp hfield with hfield | hfield
  · simp only [List.mem_cons, List.not_mem_nil, or_false] at hfield
    rcases hfield with rfl | rfl | rfl | rfl | rfl | rfl | rfl | rfl | rfl | rfl
    · exact .string _
    · exact .string _
    · exact .bool _
    · exact .bool _
    · exact .bool _
    · exact .bool _
    · exact spelled_nat _
    · exact spelled_nat _
    · exact spelled_nat _
    · exact spelled_nat _
  · cases hlast : p.lastCompletedAt with
    | none => rw [hlast] at hfield; exact absurd hfield (by simp)
    | some t =>
        rw [hlast] at hfield
        rw [List.mem_singleton.mp hfield]
        exact .string _

theorem StatusReport.spelled {r : StatusReport}
    (hr : ∀ f ∈ r.feeds, ∀ v, f.2.data = some v → v.Spelled) : r.encode.Spelled := by
  refine .object fun field hfield => ?_
  simp only [List.mem_cons, List.not_mem_nil, or_false] at hfield
  rcases hfield with rfl | rfl | rfl | rfl | rfl
  · exact .bool _
  · exact .bool _
  · refine .array fun v hv => ?_
    obtain ⟨p, -, rfl⟩ := List.mem_map.mp hv
    exact p.spelled
  · refine .object fun field hfield => ?_
    obtain ⟨f, hf, rfl⟩ := List.mem_map.mp hfield
    exact FeedState.spelled (hr f hf)
  · exact .number (Json.Number.spelled_integer _)

/-- What is printed for a report line by line is read as its document. -/
theorem StatusReport.read_pretty {r : StatusReport}
    (hr : ∀ f ∈ r.feeds, ∀ v, f.2.data = some v → v.Spelled) :
    StatusReport.read r.encode.pretty = Decode.statusReport r.encode.document := by
  unfold StatusReport.read
  rw [(StatusReport.spelled hr).ofText_pretty]
  rfl

/-- What is printed for a report is read as its document. -/
theorem StatusReport.read_compact {r : StatusReport}
    (hr : ∀ f ∈ r.feeds, ∀ v, f.2.data = some v → v.Spelled) :
    StatusReport.read r.encode.compact = Decode.statusReport r.encode.document := by
  unfold StatusReport.read
  rw [(StatusReport.spelled hr).ofText_compact]
  rfl

theorem StatusReport.Lawful.read_eq {r : StatusReport} (hr : r.Lawful) :
    StatusReport.read r.encode.compact = Decode.statusReport r.encode.document :=
  StatusReport.read_compact fun f hf v hv => ((hr.feeds f hf).data v hv).spelled

/-- A report that is read is the one that was sent, but for what is lost on the way. -/
theorem StatusReport.Lawful.read {r r' : StatusReport} (hr : r.Lawful)
    (h : StatusReport.read r.encode.compact = some r') : r' = r.received :=
  Decode.statusReport_encode hr (hr.read_eq ▸ h)

end FeedPoller
