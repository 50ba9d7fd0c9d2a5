/-
The flags of a feed agree with its data.

Whoever fetches a feed tells the store when it begins and how it ends, but the store takes its
calls as they come: those of several fetches of one feed in any order, a beginning without an end,
an end without a beginning, a removal in between.  It needs no order.  Which flag a beginning sets
depends on whether there is data, and only two calls change that: one that brings data clears both
flags, and one that removes the feed removes its flags with it.  So what is to be kept is
`Consistent`, entry by entry, and no call needs to know which calls came before it.
-/
import FeedPoller.Proofs.Feed.Contents
import FeedPoller.Proofs.Feed.Removal
import FeedPoller.Report.Text

namespace FeedPoller

/-! ### One feed -/

namespace FeedState

variable {f : FeedState}

/-- The flags and the date of a feed agree with its data. -/
structure Consistent (f : FeedState) : Prop where
  loading : f.loading = true → f.data = none
  refreshing : f.isRefreshing = true → f.data.isSome = true
  dated : f.updatedAt.isSome = f.data.isSome

theorem consistent_default : ({} : FeedState).Consistent := ⟨fun _ => rfl, by simp, rfl⟩

theorem Consistent.beginFetch (h : f.Consistent) : f.beginFetch.Consistent := by
  unfold FeedState.beginFetch
  split
  · next hdata => exact ⟨h.loading, fun _ => hdata, h.dated⟩
  · next hdata => exact ⟨fun _ => by simpa [hasData] using hdata, h.refreshing, h.dated⟩

theorem consistent_completeFetch (f : FeedState) (data : Json.Value) (time : DateTime) :
    (f.completeFetch data time).Consistent :=
  ⟨fun h => absurd h (by simp [completeFetch]), fun _ => rfl, rfl⟩

theorem Consistent.failFetch (h : f.Consistent) (error : String) : (f.failFetch error).Consistent :=
  ⟨fun hl => absurd hl (by simp [FeedState.failFetch]),
    fun hr => absurd hr (by simp [FeedState.failFetch]), h.dated⟩

/-- Never are both flags set. -/
theorem Consistent.one_flag (h : f.Consistent) : ¬ (f.loading = true ∧ f.isRefreshing = true) := by
  rintro ⟨hl, hr⟩
  have hdata := h.refreshing hr
  rw [h.loading hl] at hdata
  exact absurd hdata (by simp)

/-- What is noted of a feed goes by its data, and comes to what its flags say. -/
theorem Consistent.fetchNote (h : f.Consistent) :
    StatusReport.fetchNote (some f) =
      if f.isRefreshing then "  [refreshing]" else if f.loading then "  [loading]" else "" := by
  cases hr : f.isRefreshing with
  | true => simp [StatusReport.fetchNote, isBusy, hasData, hr, h.refreshing hr]
  | false =>
      cases hl : f.loading with
      | true => simp [StatusReport.fetchNote, isBusy, hasData, hr, hl, h.loading hl]
      | false => simp [StatusReport.fetchNote, isBusy, hr, hl]

end FeedState

/-! ### One call -/

namespace FeedStore

variable {s : FeedStore} {key : String} {time : DateTime} {call : StoreWrite}

/-- The flags and dates of all feeds agree with their data. -/
def Consistent (s : FeedStore) : Prop := ∀ entry ∈ s.entries, entry.2.Consistent

theorem Consistent.write (h : s.Consistent) (time : DateTime) (call : StoreWrite) :
    (s.write time call).Consistent := by
  cases call with
  | begin key =>
      exact forall_update h FeedState.consistent_default key fun _ hf => hf.beginFetch
  | complete key data =>
      exact forall_update h FeedState.consistent_default key
        fun f _ => f.consistent_completeFetch data time
  | fail key error =>
      exact forall_update h FeedState.consistent_default key fun _ hf => hf.failFetch error
  | remove key => exact fun entry hentry => h entry (List.mem_filter.mp hentry).1

/-- There is data of a feed. -/
def HasData (s : FeedStore) (key : String) : Prop := ∃ f, s.get? key = some f ∧ f.hasData = true

instance (s : FeedStore) (key : String) : Decidable (s.HasData key) :=
  decidable_of_iff ((s.get? key).any (·.hasData) = true) (by simp [HasData, Option.any_eq_true])

/-- Whether there is data of a feed after a call for it that leaves an entry. -/
theorem hasData_update {f : FeedState → FeedState} :
    (s.update key f).HasData key ↔ (f ((s.get? key).getD {})).hasData = true := by
  unfold HasData
  rw [get?_update_self]
  simp

/-- A feed that has no entry has no data. -/
theorem hasData_getD : ((s.get? key).getD {}).hasData = true ↔ s.HasData key := by
  unfold HasData
  cases s.get? key with
  | none => simp [FeedState.hasData]
  | some f => simp

/-- A call brings data of a feed or removes it; otherwise there is data if there was before. -/
theorem hasData_write :
    (s.write time call).HasData key ↔
      (∃ data, call = .complete key data) ∨ (s.HasData key ∧ call ≠ .remove key) := by
  by_cases hkey : call.key = key
  · subst hkey
    cases call with
    | begin key =>
        have hbegin : ∀ f : FeedState, f.beginFetch.hasData = f.hasData := by
          intro f
          unfold FeedState.beginFetch
          split <;> rfl
        simp only [FeedStore.write, FeedStore.beginFetch, StoreWrite.key]
        rw [hasData_update, hbegin, hasData_getD]
        simp
    | complete key data =>
        simp only [FeedStore.write, FeedStore.completeFetch, StoreWrite.key]
        rw [hasData_update]
        simp [FeedState.completeFetch, FeedState.hasData]
    | fail key error =>
        have hfail : ∀ f : FeedState, (f.failFetch error).hasData = f.hasData := fun _ => rfl
        simp only [FeedStore.write, FeedStore.failFetch, StoreWrite.key]
        rw [hasData_update, hfail, hasData_getD]
        simp
    | remove key => simp [FeedStore.write, StoreWrite.key, HasData, get?_remove_self]
  · -- A call for another feed leaves this one as it is, and is neither of the two.
    have hbrings : ¬ ∃ data, call = .complete key data := by
      rintro ⟨data, rfl⟩
      exact hkey rfl
    have hremoves : call ≠ .remove key := by
      rintro rfl
      exact hkey rfl
    rw [or_iff_right hbrings, and_iff_left hremoves]
    simp only [HasData, get?_write_of_ne (Ne.symm hkey) time]

/-! ### All calls -/

/-- The store after calls that are made one after the other, each at some time. -/
def writes (s : FeedStore) (calls : List (DateTime × StoreWrite)) : FeedStore :=
  calls.foldl (fun s call => s.write call.1 call.2) s

theorem Consistent.writes {calls : List (DateTime × StoreWrite)} (h : s.Consistent) :
    (s.writes calls).Consistent := by
  induction calls generalizing s with
  | nil => exact h
  | cons call rest ih => exact ih (h.write call.1 call.2)

/-- Data stays as long as the feed is not removed. -/
theorem HasData.writes {calls : List (DateTime × StoreWrite)} (h : s.HasData key)
    (hkept : ∀ time, (time, .remove key) ∉ calls) : (s.writes calls).HasData key := by
  induction calls generalizing s with
  | nil => exact h
  | cons call rest ih =>
      have hfirst : call.2 ≠ .remove key := fun hcall => hkept call.1 (by simp [← hcall])
      refine ih (hasData_write.mpr (Or.inr ⟨h, hfirst⟩)) fun time hmem => ?_
      exact hkept time (List.mem_cons_of_mem _ hmem)

/--
**The flags agree with the data, whatever the order of the calls.**  After any calls to a new store
every feed is shown as loading only if it has no data and as refreshing only if it has some,
so never as both; it has a date exactly if it has data; and what is noted of it is what its flags
say.  A feed gets data by a call that brings some and loses it by its removal, and by no
other call, so it has data until it is removed.
-/
theorem flags_agree (calls : List (DateTime × StoreWrite)) :
    let s := FeedStore.writes {} calls
    (∀ entry ∈ s.entries,
      (entry.2.loading = true → entry.2.data = none) ∧
      (entry.2.isRefreshing = true → entry.2.data.isSome = true) ∧
      ¬ (entry.2.loading = true ∧ entry.2.isRefreshing = true) ∧
      (entry.2.data.isSome = true ↔ entry.2.updatedAt.isSome = true) ∧
      StatusReport.fetchNote (some entry.2) =
        if entry.2.isRefreshing then "  [refreshing]"
        else if entry.2.loading then "  [loading]" else "") ∧
    (∀ key time call, (s.write time call).HasData key ↔
      (∃ data, call = .complete key data) ∨ (s.HasData key ∧ call ≠ .remove key)) ∧
    ∀ key more, s.HasData key → (∀ time, (time, .remove key) ∉ more) →
      (s.writes more).HasData key := by
  intro s
  have hnew : ({} : FeedStore).Consistent := by simp [Consistent]
  have hs : s.Consistent := hnew.writes
  refine ⟨fun entry hentry => ?_, fun key time call => hasData_write,
    fun key more => HasData.writes⟩
  have h : entry.2.Consistent := hs entry hentry
  exact ⟨h.loading, h.refreshing, h.one_flag, by rw [h.dated], h.fetchNote⟩

/-- Two fetches of a feed overlap, and a third one is going on. -/
def overlapping : List (DateTime × StoreWrite) :=
  [(default, .begin "a"), (default, .begin "a"), (default, .complete "a" .null),
    (default, .fail "a" "unreachable"), (default, .begin "a")]

/-- Another feed is removed, and a fetch fails. -/
def unremoved : List (DateTime × StoreWrite) :=
  [(default, .remove "b"), (default, .fail "a" "unreachable")]

theorem flags_agree_overlapping :
    (FeedStore.writes {} overlapping).HasData "a" ∧
    (∀ time, (time, .remove "a") ∉ unremoved) ∧
    ((FeedStore.writes {} overlapping).writes unremoved).HasData "a" := by
  have hdata : (FeedStore.writes {} overlapping).HasData "a" := by decide +kernel
  have hkept : ∀ time, (time, .remove "a") ∉ unremoved := by simp [unremoved]
  exact ⟨hdata, hkept, (flags_agree overlapping).2.2 "a" unremoved hdata hkept⟩

end FeedStore

end FeedPoller
