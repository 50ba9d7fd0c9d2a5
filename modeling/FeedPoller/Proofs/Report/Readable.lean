/-
Which reports can be read.

Every field of a report has a reader, and none of them can fail on what is written there, but for
one.  Counts fit 64 bits, dates are dates that there are, and all data holds numbers that can be
read again.  What is left is depth: the report, its table of feeds and each feed take three
levels of nesting for themselves, so the data of a feed has three levels less in a report than
it had when it was read alone.
-/
import FeedPoller.Proofs.Feed.Contents
import FeedPoller.Proofs.Json.Held
import FeedPoller.Proofs.Report.Wire

namespace FeedPoller

open Json (Value Document)

/-- An ordinary date in one of the years that dates are kept for. -/
structure DateTime.Kept (t : DateTime) : Prop where
  ordinary : t.Ordinary
  first : DateTime.firstSecond ≤ t.seconds
  last : t.seconds ≤ DateTime.lastSecond

/-- The counts of a poll fit 64 bits. -/
structure PollStatus.Fits (p : PollStatus) : Prop where
  interval : p.intervalMillis ≤ Json.Number.largest64
  order : p.registrationOrder ≤ Json.Number.largest64
  runs : p.runs ≤ Json.Number.largest64
  failures : p.failures ≤ Json.Number.largest64

instance (p : PollStatus) : Decidable p.Fits :=
  decidable_of_iff (p.intervalMillis ≤ Json.Number.largest64 ∧
      p.registrationOrder ≤ Json.Number.largest64 ∧ p.runs ≤ Json.Number.largest64 ∧
      p.failures ≤ Json.Number.largest64)
    ⟨fun ⟨hi, ho, hr, hf⟩ => ⟨hi, ho, hr, hf⟩, fun h => ⟨h.interval, h.order, h.runs, h.failures⟩⟩

namespace StatusReport

/-- A report in which depth is all that can be too much. -/
structure Regular (r : StatusReport) : Prop where
  counts : ∀ p ∈ r.polls, p.Fits
  finished : ∀ p ∈ r.polls, ∀ t, p.lastCompletedAt = some t → t.Kept
  feeds : ∀ f ∈ r.feeds, f.2.Keeps Value.Held DateTime.Kept
  made : r.generatedAt.Kept

/-- No data is nested deeper than a report leaves levels for. -/
def Shallow (r : StatusReport) : Prop :=
  ∀ f ∈ r.feeds, ∀ v, f.2.data = some v → v.depth ≤ Json.depthLimit - 3

instance (r : StatusReport) : Decidable r.Shallow :=
  decidable_of_iff (∀ f ∈ r.feeds, f.2.data.all (·.depth ≤ Json.depthLimit - 3) = true)
    (forall₂_congr fun f _ => by cases f.2.data <;> simp)

end StatusReport

namespace Decode

/-! ### The readers of fields -/

theorem integer_int {n : Int} (h : (Json.Number.integer n).Held) :
    integer (Value.int n).document = some n := by
  unfold integer
  rw [Value.int, Value.document, Json.Number.literal_integer]
  dsimp only
  rw [Json.Number.ofLiteral_wholeLiteral h]

theorem count_of_le {n : Nat} (h : n ≤ Json.Number.largest64) :
    count (Value.nat n).document = some n := by
  have hheld : (Json.Number.integer (n : Int)).Held := ⟨by omega, by exact_mod_cast h⟩
  have hinteger : integer (Value.nat n).document = some (n : Int) := integer_int hheld
  unfold count
  rw [hinteger, Option.bind_eq_bind, Option.bind_some, if_pos (Int.natCast_nonneg n),
    Int.toNat_natCast]

theorem dateTime_isSome {t : DateTime} (ht : t.Kept) : (dateTime t.encode.document).isSome := by
  rw [dateTime_document, Rfc3339.read_write_self ht.ordinary.writable ht.first ht.last]
  rfl

/-- A value that may be missing can be read if it can be read when it is there. -/
theorem nullable_isSome {α : Type} {read : Document → Option α} {write : α → Value} {a : Option α}
    (h : ∀ x, a = some x → (read (write x).document).isSome) :
    (nullable read (Value.ofOption write a).document).isSome := by
  cases a with
  | none => rfl
  | some x =>
      unfold nullable Value.ofOption
      split
      · rfl
      · rw [Option.isSome_map]
        exact h x rfl

/-- A list can be read if each of its items can. -/
theorem mapM_isSome {α β : Type} {read : α → Option β} :
    ∀ {l : List α}, (l.mapM read).isSome ↔ ∀ a ∈ l, (read a).isSome := by
  intro l
  induction l with
  | nil => simp
  | cons a l ih =>
      rw [List.mapM_cons, List.forall_mem_cons, ← ih]
      cases read a with
      | none => simp
      | some b => cases hrest : l.mapM read <;> simp

/-! ### Polls and feeds -/

theorem data_isSome_iff {f : FeedState} {depth : Nat} (hf : ∀ v, f.data = some v → v.Held) :
    (nullable (Value.ofDocument depth) (f.data.getD .null).document).isSome ↔
      ∀ v, f.data = some v → v.depth ≤ depth := by
  have hnullable : ∀ d, (nullable (Value.ofDocument depth) d).isSome =
      (Value.ofDocument depth d).isSome := by
    intro d
    cases d <;> simp [nullable, Value.ofDocument]
  rw [hnullable]
  cases hdata : f.data with
  | none => simp [Value.document, Value.ofDocument]
  | some v => simpa using (hf v hdata).ofDocument_isSome depth

theorem errorText_isSome (error : Option String) :
    (nullable text (Value.ofOption .string error).document).isSome :=
  nullable_isSome fun _ _ => rfl

/-- A feed can be read where there are levels enough for its data. -/
theorem feedState_isSome_iff {f : FeedState} {depth : Nat} (hf : f.Keeps Value.Held DateTime.Kept) :
    (feedState depth f.encode.document).isSome ↔ ∀ v, f.data = some v → v.depth ≤ depth := by
  obtain ⟨error, herror⟩ := Option.isSome_iff_exists.mp
    (errorText_isSome f.error)
  obtain ⟨updatedAt, hupdatedAt⟩ := Option.isSome_iff_exists.mp
    (nullable_isSome fun t ht => dateTime_isSome (hf.updatedAt t ht))
  rw [← data_isSome_iff hf.data]
  unfold feedState
  rw [slots_feedState]
  simp only [Option.bind_eq_bind, Option.bind_some, Slot.optional, Slot.required, bool, herror,
    hupdatedAt]
  cases nullable (Value.ofDocument depth) (f.data.getD .null).document <;> simp

theorem pollStatus_isSome {p : PollStatus} (hp : p.Fits)
    (hlast : ∀ t, p.lastCompletedAt = some t → t.Kept) : (pollStatus p.encode.document).isSome := by
  have htime : ((lastSlot p.lastCompletedAt).defaulting none (nullable dateTime)).isSome := by
    cases hcompleted : p.lastCompletedAt with
    | none => rfl
    | some t =>
        have hkept : ∀ u, some t = some u → (dateTime u.encode.document).isSome :=
          fun u hu => dateTime_isSome (hlast u (hcompleted.trans hu))
        simp only [lastSlot, Slot.defaulting]
        exact nullable_isSome hkept
  obtain ⟨time, htime⟩ := Option.isSome_iff_exists.mp htime
  unfold pollStatus
  rw [slots_pollStatus]
  simp only [Option.bind_eq_bind, Option.bind_some, Slot.required, bool, text, pollState_name,
    count_of_le hp.interval, count_of_le hp.order, count_of_le hp.runs, count_of_le hp.failures,
      htime]
  rfl

/-! ### Reports -/

theorem polls_isSome {r : StatusReport} (hr : r.Regular) :
    (list pollStatus (Value.array (r.polls.map PollStatus.encode)).document).isSome := by
  rw [Value.document, Value.documents_eq_map, List.map_map]
  refine mapM_isSome.mpr fun d hd => ?_
  obtain ⟨p, hp, rfl⟩ := List.mem_map.mp hd
  exact pollStatus_isSome (hr.counts p hp) (hr.finished p hp)

/-- A table can be read if each of its values can. -/
theorem table_isSome_iff {α : Type} {read : Document → Option α} {write : α → Value}
    {fs : List (String × α)} :
    (table read (Value.object (fs.map fun f => (f.1, write f.2))).document).isSome ↔
      ∀ f ∈ fs, (read (write f.2).document).isSome := by
  rw [table_document, Option.isSome_map, mapM_isSome, List.forall_mem_map]
  refine forall₂_congr fun f _ => ?_
  rw [entry_some, Option.isSome_map]

theorem feeds_isSome_iff {r : StatusReport} (hr : r.Regular) {depth : Nat} :
    (table (feedState depth)
      (Value.object (r.feeds.map fun f => (f.1, f.2.encode))).document).isSome ↔
      ∀ f ∈ r.feeds, ∀ v, f.2.data = some v → v.depth ≤ depth := by
  rw [table_isSome_iff]
  exact forall₂_congr fun f hf => feedState_isSome_iff (hr.feeds f hf)

/-- The date of a report is read if its year is one that dates are kept for. -/
theorem seconds_of_range {n : Int} (h : DateTime.firstSecond ≤ n ∧ n ≤ DateTime.lastSecond) :
    (integer (Value.int n).document).bind DateTime.ofSeconds? = some ⟨n, 0⟩ := by
  have hbounds : -(Nat.pow 2 63 : Int) ≤ DateTime.firstSecond ∧
      DateTime.lastSecond ≤ Json.Number.largest64 := by decide
  have hheld : (Json.Number.integer n).Held :=
    ⟨Int.le_trans hbounds.1 h.1, Int.le_trans h.2 hbounds.2⟩
  rw [integer_int hheld, Option.bind_some, DateTime.ofSeconds?, if_pos h]

theorem statusReport_isSome_iff {r : StatusReport} (hr : r.Regular) :
    (statusReport r.encode.document).isSome ↔ r.Shallow := by
  obtain ⟨polls, hpolls⟩ := Option.isSome_iff_exists.mp (polls_isSome hr)
  have htime := seconds_of_range ⟨hr.made.first, hr.made.last⟩
  rw [StatusReport.Shallow, ← feeds_isSome_iff hr]
  unfold statusReport
  rw [slots_statusReport]
  simp only [Option.bind_eq_bind, Option.bind_some, Slot.required, bool, hpolls, htime]
  cases table (feedState (Json.depthLimit - 3))
    (Value.object (r.feeds.map fun f => (f.1, f.2.encode))).document <;> simp

end Decode

/-- What is printed for a report can be read exactly if no data in it is nested too deeply. -/
theorem StatusReport.Regular.read_isSome_iff {r : StatusReport} (hr : r.Regular) :
    (StatusReport.read r.encode.compact).isSome ↔ r.Shallow := by
  rw [StatusReport.read_compact fun f hf v hv => ((hr.feeds f hf).data v hv).spelled]
  exact Decode.statusReport_isSome_iff hr

end FeedPoller
