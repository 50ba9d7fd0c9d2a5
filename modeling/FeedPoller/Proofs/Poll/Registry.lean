/-
What becomes of the registry.

Every operation of the scheduler that is about one registration looks it up, says what
becomes of it, and puts it back in its place.  So two questions decide most of what is
proved elsewhere: which registrations an operation leaves as they are, and which facts
about the one it touches survive.

The answer to the second is `account`: a registration's identity, its options and what
its runs have come to.  Pausing, resuming and scheduling only rearrange what is planned for
the next run, and leave every account as it was.

Operations on many registrations go through them one after the other.  `foldl_induct` is
the induction for them: no step touches a registration whose turn is still to come.
-/
import FeedPoller.Poll.System
import Mathlib.Data.List.Nodup

namespace FeedPoller

/--
What a registration is and what its runs have come to: everything but what is planned for
its next run.
-/
def Registration.account (r : Registration) : Registration :=
  { r with
    explicitlyPaused := false
    state := .unscheduled
    epoch := 0
    timer := none
    pendingDelay := none }

/-- What an account determines is the same for registrations with the same account. -/
theorem Registration.eq_of_account {α : Type} {r r' : Registration} (f : Registration → α)
    (hf : ∀ q : Registration, f q.account = f q) (h : r.account = r'.account) : f r = f r' := by
  rw [← hf r, h, hf r']

theorem Registration.id_of_account {r r' : Registration} (h : r.account = r'.account) :
    r.id = r'.id :=
  eq_of_account (·.id) (fun _ => rfl) h

namespace Coordinator

variable {c c' c'' : Coordinator} {r r' q : Registration} {id : Nat} {d : Duration}

/-- No two registrations have the same id. -/
def UniqueIds (c : Coordinator) : Prop := (c.registry.map (·.id)).Nodup

theorem UniqueIds.eq (h : c.UniqueIds) (hr : r ∈ c.registry) (hq : q ∈ c.registry)
    (hid : r.id = q.id) : r = q :=
  List.inj_on_of_nodup_map h hr hq hid

/-! ### Looking up -/

theorem find?_mem {key : String} (h : c.find? key = some r) : r ∈ c.registry ∧ r.key = key := by
  refine ⟨List.mem_of_find?_eq_some h, ?_⟩
  simpa using List.find?_some h

theorem find?_none {key : String} (h : c.find? key = none) (hr : r ∈ c.registry) :
    r.key ≠ key := by
  simpa using List.find?_eq_none.mp h r hr

theorem findId?_mem (h : c.findId? id = some r) : r ∈ c.registry ∧ r.id = id := by
  refine ⟨List.mem_of_find?_eq_some h, ?_⟩
  simpa using List.find?_some h

theorem findId?_none (h : c.findId? id = none) (hr : r ∈ c.registry) : r.id ≠ id := by
  simpa using List.find?_eq_none.mp h r hr

theorem findId?_of_mem (h : c.UniqueIds) (hr : r ∈ c.registry) : c.findId? r.id = some r := by
  cases hf : c.findId? r.id with
  | none => exact absurd rfl (findId?_none hf hr)
  | some q =>
      obtain ⟨hq, hid⟩ := findId?_mem hf
      rw [h.eq hq hr hid]

/-! ### Putting back -/

theorem mem_put : q ∈ (c.put r).registry ↔
    (q ∈ c.registry ∧ q.id ≠ r.id) ∨ (q = r ∧ ∃ p ∈ c.registry, p.id = r.id) := by
  simp only [put, List.mem_map]
  constructor
  · rintro ⟨p, hp, rfl⟩
    by_cases hid : p.id = r.id
    · exact Or.inr ⟨by simp [hid], p, hp, hid⟩
    · exact Or.inl (by simpa [hid] using hp)
  · rintro (⟨hq, hid⟩ | ⟨rfl, p, hp, hid⟩)
    · exact ⟨q, hq, by simp [hid]⟩
    · exact ⟨p, hp, by simp [hid]⟩

theorem mem_put_of_ne (hq : q ∈ c.registry) (hid : q.id ≠ r.id) : q ∈ (c.put r).registry :=
  mem_put.mpr (Or.inl ⟨hq, hid⟩)

theorem mem_put_self (hr : r ∈ c.registry) (hid : r'.id = r.id) : r' ∈ (c.put r').registry :=
  mem_put.mpr (Or.inr ⟨rfl, r, hr, hid.symm⟩)

/-- Whatever the new registration has in common with the old one, the registry keeps. -/
theorem map_put {α : Type} (f : Registration → α) (h : c.UniqueIds) (hr : r ∈ c.registry)
    (hid : r'.id = r.id) (hf : f r' = f r) :
    (c.put r').registry.map f = c.registry.map f := by
  simp only [put, List.map_map]
  refine List.map_congr_left fun q hq => ?_
  by_cases hqid : q.id = r.id
  · simp [hid, hf, h.eq hq hr hqid]
  · simp [hid, hqid]

@[simp] theorem put_armed : (c.put r).armed = c.armed := rfl
@[simp] theorem join_registry : (c.join r).registry = c.registry ++ [r] := rfl

/-! ### Asking for a run -/

/-- Asking for a run either keeps the request, or arms a timer, or finds no deadline for it. -/
theorem schedule_cases (c : Coordinator) (r : Registration) (d : Duration) :
    (r.inFlight = true ∧ c.schedule r d = c.put (r.parked d)) ∨
    (r.inFlight = false ∧ ∃ deadline, c.clock.now.after? d = some deadline ∧
      c.schedule r d = (c.disarm r).arm r.scheduled deadline) ∨
    (r.inFlight = false ∧ c.clock.now.after? d = none ∧
      c.schedule r d = (c.disarm r).put r.scheduled) := by
  unfold schedule
  cases hf : r.inFlight with
  | true => exact Or.inl ⟨rfl, by simp⟩
  | false =>
      right
      cases ha : c.clock.now.after? d with
      | none => exact Or.inr ⟨rfl, rfl, by simp⟩
      | some deadline => exact Or.inl ⟨rfl, deadline, rfl, by simp⟩

/-- Asking for a run puts the registration back with another plan, and may arm a timer. -/
theorem schedule_shape (c : Coordinator) (r : Registration) (d : Duration) :
    ∃ r' timers armed, r'.account = r.account ∧ r'.explicitlyPaused = r.explicitlyPaused ∧
      c.schedule r d = { c.put r' with timers, armed } := by
  obtain ⟨-, e⟩ | ⟨-, deadline, -, e⟩ | ⟨-, -, e⟩ := schedule_cases c r d <;> rw [e]
  · exact ⟨r.parked d, c.timers, c.armed, rfl, rfl, rfl⟩
  · exact ⟨{ r.scheduled with timer := some c.armed }, _, _, rfl, rfl, rfl⟩
  · exact ⟨r.scheduled, _, _, rfl, rfl, rfl⟩

theorem mem_schedule_of_ne (hq : q ∈ c.registry) (hid : q.id ≠ r.id) :
    q ∈ (c.schedule r d).registry := by
  obtain ⟨r', _, _, ha, -, e⟩ := schedule_shape c r d
  rw [e]
  exact mem_put_of_ne hq (by rwa [Registration.id_of_account ha])

/-- What operations on registrations leave alone and go by. -/
def setting (c : Coordinator) : Gates × Clock × CoordinatorConfig := (c.gates, c.clock, c.config)

theorem schedule_setting : (c.schedule r d).setting = c.setting := by
  obtain ⟨r', _, _, -, -, e⟩ := schedule_shape c r d
  rw [e]
  rfl

theorem schedule_gates : (c.schedule r d).gates = c.gates := congrArg Prod.fst schedule_setting

/-! ### One registration after the other -/

/-- What no step changes is the same at the end. -/
theorem foldl_eq {α : Type} (g : Coordinator → α) {f : Coordinator → Registration → Coordinator}
    (hf : ∀ c r, g (f c r) = g c) : ∀ (rs : List Registration) (c : Coordinator),
      g (rs.foldl f c) = g c := by
  intro rs
  induction rs with
  | nil => intro c; rfl
  | cons r rest ih => intro c; exact (ih (f c r)).trans (hf c r)

/--
The induction for operations that go through some of the registrations: what is assumed may
speak of those whose turn is still to come.
-/
theorem foldl_induct {f : Coordinator → Registration → Coordinator}
    {I : List Registration → Coordinator → Prop}
    (others : ∀ c r q, q ∈ c.registry → q.id ≠ r.id → q ∈ (f c r).registry)
    (step : ∀ c r rest, r ∈ c.registry → I (r :: rest) c → I rest (f c r)) :
    ∀ (rs : List Registration) (c : Coordinator), (rs.map (·.id)).Nodup →
      (∀ r ∈ rs, r ∈ c.registry) → I rs c → I [] (rs.foldl f c) := by
  intro rs
  induction rs with
  | nil => intro c _ _ h; exact h
  | cons r rest ih =>
      intro c hnodup hmem h
      obtain ⟨hr, hrest⟩ := List.nodup_cons.mp hnodup
      refine ih (f c r) hrest ?_ (step c r rest (hmem r (by simp)) h)
      intro q hq
      refine others c r q (hmem q (by simp [hq])) ?_
      intro hid
      exact hr (List.mem_map.mpr ⟨q, hq, hid⟩)

/--
In the end every registration either has been made what a step makes of one, or is as it was
and none of those that were gone through.
-/
theorem foldl_touched {f : Coordinator → Registration → Coordinator}
    {P G : Registration → Prop} {rs : List Registration}
    (same : ∀ c r, (f c r).setting = c.setting)
    (others : ∀ c r q, q ∈ c.registry → q.id ≠ r.id → q ∈ (f c r).registry)
    (step : ∀ c', c'.setting = c.setting → ∀ r, P r → ∀ q ∈ (f c' r).registry,
      (q ∈ c'.registry ∧ q.id ≠ r.id) ∨ G q)
    (hids : (rs.map (·.id)).Nodup) (hmem : ∀ r ∈ rs, r ∈ c.registry) (hP : ∀ r ∈ rs, P r) :
    ∀ q ∈ (rs.foldl f c).registry, (q ∈ c.registry ∧ q ∉ rs) ∨ G q := by
  have hend : ∀ q ∈ (rs.foldl f c).registry, q ∈ [] ∨ (q ∈ c.registry ∧ q ∉ rs) ∨ G q := by
    refine (foldl_induct (I := fun rest c' => c'.setting = c.setting ∧ (∀ r ∈ rest, P r) ∧
      ∀ q ∈ c'.registry, q ∈ rest ∨ (q ∈ c.registry ∧ q ∉ rs) ∨ G q) others ?_ rs c hids hmem
      ?_).2.2
    · intro c' r rest _ ⟨hset, hPr, hinv⟩
      refine ⟨(same c' r).trans hset, fun q hq => hPr q (by simp [hq]), fun q hq => ?_⟩
      rcases step c' hset r (hPr r (by simp)) q hq with ⟨hq', hne⟩ | hG
      · rcases hinv q hq' with hq' | hdone
        · rcases List.mem_cons.mp hq' with rfl | hq'
          · exact absurd rfl hne
          · exact Or.inl hq'
        · exact Or.inr hdone
      · exact Or.inr (Or.inr hG)
    · refine ⟨rfl, hP, fun q hq => ?_⟩
      by_cases hrs : q ∈ rs
      · exact Or.inl hrs
      · exact Or.inr (Or.inl ⟨hq, hrs⟩)
  intro q hq
  simpa using hend q hq

/-! ### Rearranging -/

/-- Only what is planned for the next runs has changed, and perhaps the gates. -/
structure Rearranged (c c' : Coordinator) : Prop where
  accounts : c'.registry.map Registration.account = c.registry.map Registration.account
  nextId : c'.nextId = c.nextId
  disposed : c'.disposed = c.disposed
  clock : c'.clock = c.clock
  config : c'.config = c.config

theorem Rearranged.refl (c : Coordinator) : Rearranged c c := ⟨rfl, rfl, rfl, rfl, rfl⟩

theorem Rearranged.trans (h : Rearranged c c') (h' : Rearranged c' c'') : Rearranged c c'' :=
  ⟨h'.accounts.trans h.accounts, h'.nextId.trans h.nextId, h'.disposed.trans h.disposed,
    h'.clock.trans h.clock, h'.config.trans h.config⟩

/-- Every registration comes from one with the same account. -/
theorem Rearranged.origin (h : Rearranged c c') (hr : r' ∈ c'.registry) :
    ∃ r ∈ c.registry, r.account = r'.account := by
  have hmem : r'.account ∈ c'.registry.map Registration.account := List.mem_map_of_mem hr
  rw [h.accounts] at hmem
  exact List.mem_map.mp hmem

/-- Every registration goes on as one with the same account. -/
theorem Rearranged.successor (h : Rearranged c c') (hr : r ∈ c.registry) :
    ∃ r' ∈ c'.registry, r'.account = r.account := by
  have hmem : r.account ∈ c.registry.map Registration.account := List.mem_map_of_mem hr
  rw [← h.accounts] at hmem
  exact List.mem_map.mp hmem

/-- What the accounts determine is the same before and after. -/
theorem Rearranged.map_eq {α : Type} (h : Rearranged c c') (f : Registration → α)
    (hf : ∀ r : Registration, f r.account = f r) : c'.registry.map f = c.registry.map f := by
  have hcomp : f ∘ Registration.account = f := funext hf
  have := congrArg (List.map f) h.accounts
  simpa only [List.map_map, hcomp] using this

theorem rearranged_put (hu : c.UniqueIds) (hr : r ∈ c.registry) (ha : r'.account = r.account) :
    Rearranged c (c.put r') :=
  ⟨map_put _ hu hr (Registration.id_of_account ha) ha, rfl, rfl, rfl, rfl⟩

theorem rearranged_suspend (hu : c.UniqueIds) (hr : r ∈ c.registry)
    (ha : r'.account = r.account) : Rearranged c (c.suspend r') :=
  ⟨map_put (c := c) _ hu hr (Registration.id_of_account ha) ha, rfl, rfl, rfl, rfl⟩

theorem rearranged_schedule (hu : c.UniqueIds) (hr : r ∈ c.registry)
    (ha : r'.account = r.account) : Rearranged c (c.schedule r' d) := by
  obtain ⟨q, _, _, hq, -, e⟩ := schedule_shape c r' d
  have hqr : q.account = r.account := hq.trans ha
  rw [e]
  exact ⟨map_put _ hu hr (Registration.id_of_account hqr) hqr, rfl, rfl, rfl, rfl⟩

/-- Drawing a delay changes nothing but the source of random numbers. -/
theorem resumeDelay_draws (c : Coordinator) (jitter : Bool) :
    ∃ draws, (c.resumeDelay jitter).2 = { c with draws } := by
  unfold resumeDelay
  dsimp only
  split
  · exact ⟨c.draws, rfl⟩
  · exact ⟨_, rfl⟩

end Coordinator

end FeedPoller
