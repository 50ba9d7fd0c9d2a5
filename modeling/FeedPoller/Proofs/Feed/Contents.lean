/-
What the store holds.

An event writes to the store at most once, and in one of four ways.  Only one of them puts data
there, which the event has brought, and a date, which is that of the wall clock.  So a property
that all data has that is brought, and all dates on the wall clock, is one that everything has
that the store ever holds.

Every way of writing keeps the feeds sorted by key.
-/
import FeedPoller.Feed.System
import FeedPoller.Proofs.Fields

namespace FeedPoller

open Json (Value)

/-! ### One event -/

/-- The data that an event brings. -/
def FeedEvent.data? : FeedEvent → Option Value
  | .endFetch _ (.data v) => some v
  | .write (.complete _ v) => some v
  | _ => none

namespace FeedSystem

/-- What an event makes of the store. -/
inductive StoreChange (s : FeedSystem) (e : FeedEvent) : FeedStore → Prop where
  | none : StoreChange s e s.store
  | removed (key : String) : StoreChange s e (s.store.remove key)
  | begun (key : String) : StoreChange s e (s.store.beginFetch key)
  | failed (key error : String) : StoreChange s e (s.store.failFetch key error)
  | completed (key : String) {v : Value} (hv : e.data? = some v) :
      StoreChange s e (s.store.completeFetch key v s.wall)

theorem storeChange (s : FeedSystem) (e : FeedEvent) : StoreChange s e (s.storeAfter e) := by
  cases e with
  | write call =>
      cases call with
      | begin key => exact .begun key
      | complete key v => exact .completed key rfl
      | fail key error => exact .failed key error
      | remove key => exact .removed key
  | beginFetch id =>
      unfold storeAfter
      dsimp only
      split
      · exact .begun _
      · exact .none
  | endFetch id o =>
      unfold storeAfter
      dsimp only
      split
      · cases o with
        | data v => exact .completed _ rfl
        | failed causes => exact .failed _ _
        | panicked => exact .none
      · exact .none
  | poll | registerFeed | finishFetch => exact .none

end FeedSystem

/-! ### The order -/

theorem FeedSystem.StoreChange.sorted {s : FeedSystem} {e : FeedEvent} {store : FeedStore}
    (hc : StoreChange s e store) (h : Fields.Sorted s.store.entries) :
    Fields.Sorted store.entries := by
  cases hc with
  | none => exact h
  | removed key => exact h.erase
  | begun key => exact h.insert
  | failed key error => exact h.insert
  | completed key hv => exact h.insert

/-! ### The contents -/

variable {D : Value → Prop} {T T' : DateTime → Prop}

/-- The data and the date of a state, if it has them, are of a kind. -/
structure FeedState.Keeps (D : Value → Prop) (T : DateTime → Prop) (f : FeedState) : Prop where
  data : ∀ v, f.data = some v → D v
  updatedAt : ∀ t, f.updatedAt = some t → T t

/-- The data and the dates of all feeds are of a kind. -/
def FeedStore.Keeps (D : Value → Prop) (T : DateTime → Prop) (s : FeedStore) : Prop :=
  ∀ f ∈ s.entries, f.2.Keeps D T

namespace FeedStore

variable {s : FeedStore}

theorem Keeps.mono (h : s.Keeps D T) (hT : ∀ t, T t → T' t) : s.Keeps D T' :=
  fun f hf => ⟨(h f hf).data, fun t ht => hT t ((h f hf).updatedAt t ht)⟩

/-- What all feeds have, a new one among them, all have when one is changed that keeps it. -/
theorem forall_update {P : FeedState → Prop} (h : ∀ entry ∈ s.entries, P entry.2) (hnew : P {})
    (key : String) {f : FeedState → FeedState} (hf : ∀ state, P state → P (f state)) :
    ∀ entry ∈ (s.update key f).entries, P entry.2 := by
  intro entry hentry
  rcases Fields.mem_insert hentry with rfl | hentry
  · refine hf _ ?_
    cases hget : s.get? key with
    | none => exact hnew
    | some state => exact h _ (Fields.mem_of_find? hget)
  · exact h entry hentry

theorem Keeps.update (h : s.Keeps D T) (key : String) {f : FeedState → FeedState}
    (hf : ∀ state : FeedState, state.Keeps D T → (f state).Keeps D T) :
    (s.update key f).Keeps D T :=
  forall_update h ⟨fun _ hv => absurd hv (by simp), fun _ ht => absurd ht (by simp)⟩ key hf

end FeedStore

/-- The store holds nothing but what was brought to it, dated by the wall clock. -/
theorem FeedSystem.StoreChange.keeps {s : FeedSystem} {e : FeedEvent} {store : FeedStore}
    (hc : StoreChange s e store) (h : s.store.Keeps D T) (hwall : T s.wall)
    (hdata : ∀ v, e.data? = some v → D v) : store.Keeps D T := by
  cases hc with
  | none => exact h
  | removed key => exact fun f hf => h f (List.mem_filter.mp hf).1
  | begun key =>
      refine h.update key fun state hstate => ?_
      unfold FeedState.beginFetch
      split <;> exact ⟨hstate.data, hstate.updatedAt⟩
  | failed key error => exact h.update key fun state hstate => ⟨hstate.data, hstate.updatedAt⟩
  | completed key hv =>
      refine h.update key fun state _ => ⟨fun w hw => ?_, fun t ht => ?_⟩
      · exact Option.some.inj hw ▸ hdata _ hv
      · exact Option.some.inj ht ▸ hwall

end FeedPoller
