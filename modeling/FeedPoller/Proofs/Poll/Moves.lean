/-
What an operation can do to the coordinator.

Pausing, resuming, the gates and a refresh are all made of five moves: a registration is
suspended, or a run of it is asked for, a delay is drawn, the gates change, or a listener
comes.  What holds of each move holds of every operation made of them, so each fact
is proved once here: the table of timers stays tidy, accounts stay as they are, and the
coordinator advances.

A coordinator advances when its registrations keep their timers unless they count one
cancellation more.  That is what makes a cancellation final: no operation can give a timer
back to a registration that has let go of it.  Registering, removing and finishing a run are
not made of moves, but they advance too.
-/
import FeedPoller.Proofs.Poll.Timers
import Mathlib.Logic.Relation

namespace FeedPoller

/-- The same registration, with perhaps another pause or another state, but the same plan. -/
structure Registration.Like (r q : Registration) : Prop where
  account : q.account = r.account
  timer : q.timer = r.timer
  epoch : q.epoch = r.epoch
  pending : q.pendingDelay = r.pendingDelay

namespace Registration.Like

variable {r q : Registration}

theorem refl (r : Registration) : r.Like r := ⟨rfl, rfl, rfl, rfl⟩

theorem id (h : r.Like q) : q.id = r.id := id_of_account h.account

theorem inFlight (h : r.Like q) : q.inFlight = r.inFlight :=
  eq_of_account (·.inFlight) (fun _ => rfl) h.account

theorem sameTimer (h : r.Like q) : r.SameTimer q where
  id := h.id
  key := eq_of_account (·.key) (fun _ => rfl) h.account
  timer := h.timer
  epoch := h.epoch

end Registration.Like

/-- A registration may change its timer only by counting one cancellation more. -/
inductive Registration.Advances (r r' : Registration) : Prop where
  | same (h : r' = r)
  | replanned (h : r.epoch < r'.epoch)
  | idle (h : r'.epoch = r.epoch) (hr : r.timer = none) (hr' : r'.timer = none)

theorem Registration.Advances.trans {r r' r'' : Registration} (h : r.Advances r')
    (h' : r'.Advances r'') : r.Advances r'' := by
  cases h with
  | same h => rw [← h]; exact h'
  | replanned h =>
      cases h' with
      | same h' => exact .replanned (h' ▸ h)
      | replanned h' => exact .replanned (Nat.lt_trans h h')
      | idle h' _ _ => exact .replanned (h' ▸ h)
  | idle h hr hr' =>
      cases h' with
      | same h' => exact .idle (h' ▸ h) hr (h' ▸ hr')
      | replanned h' => exact .replanned (h ▸ h')
      | idle h' _ hr'' => exact .idle (h'.trans h) hr hr''

theorem Registration.Advances.epoch_le {r r' : Registration} (h : r.Advances r') :
    r.epoch ≤ r'.epoch := by
  cases h with
  | same h => exact Nat.le_of_eq (h ▸ rfl)
  | replanned h => exact Nat.le_of_lt h
  | idle h _ _ => exact Nat.le_of_eq h.symm

theorem Instant.le_after {t u : Instant} {d : Duration} (h : t.after? d = some u) : t ≤ u := by
  unfold Instant.after? at h
  split at h
  · rw [← Option.some.inj h]
    exact Nat.le_add_right _ _
  · exact absurd h (by simp)

theorem Instant.after_zero {t : Instant} (h : t.nanos < horizon) : t.after? .zero = some t :=
  if_pos h

namespace Coordinator

variable {c c' c'' : Coordinator} {r r' q q' : Registration} {t : Timer} {d : Duration}

/-- Timers are only added or taken away, and registrations keep theirs or advance. -/
structure Advances (c c' : Coordinator) : Prop where
  armed : c.armed ≤ c'.armed
  nextId : c.nextId ≤ c'.nextId
  clock : c'.clock = c.clock
  timers : ∀ t ∈ c'.timers, t ∈ c.timers ∨ c.armed ≤ t.number ∧ c.clock.now ≤ t.deadline
  registry : ∀ r' ∈ c'.registry,
    c.nextId ≤ r'.id ∨ ∃ r ∈ c.registry, r.id = r'.id ∧ r.Advances r'

theorem Advances.of_registry (hr : c'.registry = c.registry) (ht : c'.timers = c.timers)
    (ha : c'.armed = c.armed) (hn : c'.nextId = c.nextId) (hc : c'.clock = c.clock) :
    Advances c c' where
  armed := Nat.le_of_eq ha.symm
  nextId := Nat.le_of_eq hn.symm
  clock := hc
  timers := fun _ h => Or.inl (ht ▸ h)
  registry := fun r h => Or.inr ⟨r, hr ▸ h, rfl, .same rfl⟩

theorem Advances.refl (c : Coordinator) : Advances c c := .of_registry rfl rfl rfl rfl rfl

theorem Advances.trans (h : Advances c c') (h' : Advances c' c'') : Advances c c'' where
  armed := Nat.le_trans h.armed h'.armed
  nextId := Nat.le_trans h.nextId h'.nextId
  clock := h'.clock.trans h.clock
  timers := by
    intro t ht
    rcases h'.timers t ht with ht | ⟨hn, hd⟩
    · exact h.timers t ht
    · exact Or.inr ⟨Nat.le_trans h.armed hn, h.clock ▸ hd⟩
  registry := by
    intro r'' hr''
    rcases h'.registry r'' hr'' with hn | ⟨r', hr', hid', ha'⟩
    · exact Or.inl (Nat.le_trans h.nextId hn)
    · rcases h.registry r' hr' with hn | ⟨r, hr, hid, ha⟩
      · exact Or.inl (hid' ▸ hn)
      · exact Or.inr ⟨r, hr, hid.trans hid', ha.trans ha'⟩

/-! ### Primitive operations advance -/

/-- Putting back a registration that has advanced. -/
theorem advances_put (hr : r ∈ c.registry) (hid : r'.id = r.id) (ha : r.Advances r') :
    Advances c (c.put r') where
  armed := Nat.le_refl _
  nextId := Nat.le_refl _
  clock := rfl
  timers := fun _ ht => Or.inl ht
  registry := by
    intro p hp
    rcases mem_put.mp hp with ⟨hp, -⟩ | ⟨rfl, -⟩
    · exact Or.inr ⟨p, hp, rfl, .same rfl⟩
    · exact Or.inr ⟨r, hr, hid.symm, ha⟩

theorem advances_disarm (c : Coordinator) (r : Registration) : Advances c (c.disarm r) where
  armed := Nat.le_refl _
  nextId := Nat.le_refl _
  clock := rfl
  timers := fun _ ht => Or.inl (mem_disarm.mp ht).1
  registry := fun p hp => Or.inr ⟨p, hp, rfl, .same rfl⟩

theorem advances_arm (hr : r ∈ c.registry) (hid : q.id = r.id) (he : r.epoch < q.epoch)
    {deadline : Instant} (hd : c.clock.now ≤ deadline) : Advances c (c.arm q deadline) where
  armed := Nat.le_succ _
  nextId := Nat.le_refl _
  clock := rfl
  timers := by
    intro t ht
    rcases List.mem_append.mp ht with ht | ht
    · exact Or.inl ht
    · rw [List.mem_singleton.mp ht]
      exact Or.inr ⟨Nat.le_refl _, hd⟩
  registry := by
    intro p hp
    rcases mem_put.mp hp with ⟨hp, -⟩ | ⟨rfl, -⟩
    · exact Or.inr ⟨p, hp, rfl, .same rfl⟩
    · exact Or.inr ⟨r, hr, hid.symm, .replanned he⟩

theorem advances_schedule (hr : r ∈ c.registry) (hs : r.SameTimer q)
    (hflight : q.inFlight = true → r.timer = none) : Advances c (c.schedule q d) := by
  have hlt : r.epoch < q.scheduled.epoch := hs.epoch ▸ Nat.lt_succ_self _
  obtain ⟨hf, e⟩ | ⟨-, deadline, hd, e⟩ | ⟨-, -, e⟩ := schedule_cases c q d <;> rw [e]
  · have hnone := hflight hf
    exact advances_put hr hs.id (.idle hs.epoch hnone (hs.timer.trans hnone))
  · exact (advances_disarm c q).trans
      (advances_arm (c := c.disarm q) (q := q.scheduled) hr hs.id hlt (Instant.le_after hd))
  · exact (advances_disarm c q).trans (advances_put (c := c.disarm q) hr hs.id (.replanned hlt))

theorem advances_suspend (hr : r ∈ c.registry) (hs : r.SameTimer q) :
    Advances c (c.suspend q) := by
  have hlt : r.epoch < q.suspended.epoch := hs.epoch ▸ Nat.lt_succ_self _
  exact (advances_disarm c q).trans (advances_put (c := c.disarm q) hr hs.id (.replanned hlt))

theorem advances_remove (c : Coordinator) (r : Registration) : Advances c (c.remove r) where
  armed := Nat.le_refl _
  nextId := Nat.le_refl _
  clock := rfl
  timers := fun _ ht => Or.inl (mem_disarm.mp ht).1
  registry := fun p hp => Or.inr ⟨p, (List.mem_filter.mp hp).1, rfl, .same rfl⟩

theorem advances_join (hid : r.id = c.nextId) :
    Advances c (c.join r) where
  armed := Nat.le_refl _
  nextId := Nat.le_succ _
  clock := rfl
  timers := fun _ ht => Or.inl ht
  registry := by
    intro p hp
    rcases List.mem_append.mp hp with hp | hp
    · exact Or.inr ⟨p, hp, rfl, .same rfl⟩
    · rw [List.mem_singleton.mp hp]
      exact Or.inl (Nat.le_of_eq hid.symm)

/-! ### Moves -/

/-- The delays before the next run of a poll that is asked to run: none, or a drawn one. -/
def Resumes (c : Coordinator) (d : Duration) : Prop :=
  d = .zero ∨ ∃ ms < c.config.jitterMax.millis64, d = .ofMillis ms

theorem resumeDelay_resumes (c : Coordinator) (jitter : Bool) :
    c.Resumes (c.resumeDelay jitter).1 := by
  unfold resumeDelay
  dsimp only
  split
  · exact Or.inl rfl
  · next hb =>
      have hpos : 0 < c.config.jitterMax.millis64 := by
        refine Nat.pos_of_ne_zero fun h0 => hb ?_
        simp [h0]
      exact Or.inr ⟨_, Nat.mod_lt _ hpos, rfl⟩

/-- What the operations on pauses, gates and refreshes are made of. -/
inductive Move : Coordinator → Coordinator → Prop where
  | suspend {c : Coordinator} {r q : Registration} (hr : r ∈ c.registry) (hq : r.Like q) :
      Move c (c.suspend q)
  | schedule {c : Coordinator} {r q : Registration} {d : Duration} (hr : r ∈ c.registry)
      (hq : r.Like q) (hd : c.Resumes d) : Move c (c.schedule q d)
  | draw {c : Coordinator} (draws : Draws) : Move c { c with draws }
  | gates {c : Coordinator} (gates : Gates) : Move c { c with gates }
  | listen {c : Coordinator} : Move c { c with listening := true }

/-- Some moves, one after the other. -/
abbrev Moves : Coordinator → Coordinator → Prop := Relation.ReflTransGen Move

theorem Tidy.of_registry (h : c.Tidy) (hr : c'.registry = c.registry)
    (ht : c'.timers = c.timers) (ha : c'.armed = c.armed) (hn : c'.nextId = c.nextId)
    (hd : c'.disposed = c.disposed) : c'.Tidy where
  toOrderly := h.toOrderly.of_registry hr hn hd
  numbers := by rw [ht]; exact h.numbers
  numbered := by rw [ht, ha]; exact h.numbered
  owner := by rw [hr, ht]; exact h.owner
  own := by rw [hr, ht]; exact h.own
  idle := by rw [hr]; exact h.idle

theorem Tidy.withGates (h : c.Tidy) (gates : Gates) : Tidy { c with gates } :=
  h.of_registry rfl rfl rfl rfl rfl

/-- A registration with a run going on has no timer. -/
theorem Tidy.timer_none (h : c.Tidy) (hr : r ∈ c.registry) (hf : r.inFlight = true) :
    r.timer = none := by
  cases ht : r.timer with
  | none => rfl
  | some n =>
      have := h.idle r hr (by simp [ht])
      rw [hf] at this
      exact absurd this (by simp)

/-- To ask for a run of a registration is to rearrange its plan. -/
theorem schedule_spec (ht : c.Tidy) (hr : r ∈ c.registry) (hq : r.Like q) :
    (c.schedule q d).Tidy ∧ Advances c (c.schedule q d) ∧ Rearranged c (c.schedule q d) := by
  have hflight : q.inFlight = true → r.timer = none :=
    fun hf => ht.timer_none hr (hq.inFlight ▸ hf)
  exact ⟨ht.schedule hr hq.sameTimer hflight, advances_schedule hr hq.sameTimer hflight,
    rearranged_schedule ht.uniqueIds hr hq.account⟩

theorem Move.spec (h : Move c c') (ht : c.Tidy) :
    c'.Tidy ∧ Advances c c' ∧ Rearranged c c' := by
  cases h with
  | suspend hr hq =>
      exact ⟨ht.suspend hr hq.sameTimer, advances_suspend hr hq.sameTimer,
        rearranged_suspend ht.uniqueIds hr hq.account⟩
  | schedule hr hq => exact schedule_spec ht hr hq
  | draw | gates | listen =>
      exact ⟨ht.of_registry rfl rfl rfl rfl rfl, .of_registry rfl rfl rfl rfl rfl,
        ⟨rfl, rfl, rfl, rfl, rfl⟩⟩

theorem Moves.spec (h : Moves c c') (ht : c.Tidy) :
    c'.Tidy ∧ Advances c c' ∧ Rearranged c c' := by
  induction h with
  | refl => exact ⟨ht, .refl c, .refl c⟩
  | tail _ hmove ih =>
      obtain ⟨htidy, hadv, hrear⟩ := ih
      obtain ⟨htidy', hadv', hrear'⟩ := hmove.spec htidy
      exact ⟨htidy', hadv.trans hadv', hrear.trans hrear'⟩

theorem Moves.single (h : Move c c') : Moves c c' := Relation.ReflTransGen.single h

/-! ### Operations made of moves -/

theorem mem_suspend_of_ne (hq : q ∈ c.registry) (hid : q.id ≠ r.id) :
    q ∈ (c.suspend r).registry :=
  mem_put_of_ne (c := c.disarm r) hq hid

theorem resumeDelay_moves (c : Coordinator) (jitter : Bool) :
    Moves c (c.resumeDelay jitter).2 := by
  obtain ⟨draws, h⟩ := c.resumeDelay_draws jitter
  rw [h]
  exact Moves.single (.draw draws)

/-- What is asked for after drawing a delay. -/
abbrev resumeOne (jitter : Bool) (c : Coordinator) (r : Registration) : Coordinator :=
  (c.resumeDelay jitter).2.schedule r (c.resumeDelay jitter).1

theorem mem_resumeOne_of_ne {jitter : Bool} (hq : q ∈ c.registry) (hid : q.id ≠ r.id) :
    q ∈ (resumeOne jitter c r).registry := by
  refine mem_schedule_of_ne ?_ hid
  obtain ⟨draws, h⟩ := c.resumeDelay_draws jitter
  rw [h]
  exact hq

theorem resumeOne_setting {jitter : Bool} : (resumeOne jitter c r).setting = c.setting := by
  obtain ⟨draws, h⟩ := c.resumeDelay_draws jitter
  rw [resumeOne, schedule_setting, h]
  rfl

theorem resumeOne_gates {jitter : Bool} : (resumeOne jitter c r).gates = c.gates :=
  congrArg Prod.fst resumeOne_setting

theorem resumeOne_moves {jitter : Bool} (hr : r ∈ c.registry) (hq : r.Like q) :
    Moves c (resumeOne jitter c q) := by
  have hd := c.resumeDelay_resumes jitter
  obtain ⟨draws, h⟩ := c.resumeDelay_draws jitter
  refine (c.resumeDelay_moves jitter).tail (.schedule (r := r) ?_ hq ?_) <;> rw [h]
  · exact hr
  · exact hd

/-- Some of the registrations have pairwise different ids. -/
theorem Tidy.filter_ids (h : c.Tidy) (p : Registration → Bool) :
    ((c.registry.filter p).map (·.id)).Nodup :=
  h.uniqueIds.sublist (List.filter_sublist.map _)

theorem suspendWhere_moves (h : c.Tidy) (applies : Registration → Bool) :
    Moves c (c.suspendWhere applies) :=
  foldl_induct (I := fun _ c' => Moves c c') (fun _ _ _ => mem_suspend_of_ne)
    (fun _ r _ hr hc => hc.tail (.suspend hr (.refl r))) _ c (h.filter_ids applies)
    (fun _ hr => (List.mem_filter.mp hr).1) .refl

theorem resumeWhere_moves (h : c.Tidy) (applies : Registration → Bool) (jitter : Bool) :
    Moves c (c.resumeWhere applies jitter) :=
  foldl_induct (f := resumeOne jitter) (I := fun _ c' => Moves c c')
    (fun _ _ _ => mem_resumeOne_of_ne)
    (fun _ r _ hr hc => hc.trans (resumeOne_moves hr (.refl r))) _ c (h.filter_ids _)
    (fun _ hr => (List.mem_filter.mp hr).1) .refl

/-- The gates are the caller's business. -/
theorem resumeWhere_gates (applies : Registration → Bool) (jitter : Bool) :
    (c.resumeWhere applies jitter).gates = c.gates :=
  foldl_eq (f := resumeOne jitter) (·.gates) (fun _ _ => resumeOne_gates) _ c

theorem refresh_moves (h : c.Tidy) : Moves c c.refresh.1 := by
  unfold refresh
  split
  · exact .refl
  · exact foldl_induct (f := fun c r => c.schedule r .zero) (I := fun _ c' => Moves c c')
      (fun _ _ _ => mem_schedule_of_ne)
      (fun _ r _ hr hc => hc.tail (.schedule hr (.refl r) (Or.inl rfl))) _ c (h.filter_ids _)
      (fun _ hr => (List.mem_filter.mp hr).1) .refl

theorem pause_moves (c : Coordinator) (key : String) : Moves c (c.pause key) := by
  unfold pause
  split
  · exact .refl
  · next r hf => exact Moves.single (.suspend (find?_mem hf).1 ⟨rfl, rfl, rfl, rfl⟩)

theorem resume_moves (c : Coordinator) (key : String) (jitter : Bool) :
    Moves c (c.resume key jitter) := by
  unfold resume
  split
  · exact .refl
  · next r hf =>
      split
      · exact .refl
      · split
        · exact .refl
        · exact resumeOne_moves (find?_mem hf).1 ⟨rfl, rfl, rfl, rfl⟩

theorem pauseHealthAware_moves (h : c.Tidy) : Moves c c.pauseHealthAware :=
  (Moves.single (.gates _)).trans (suspendWhere_moves (h.withGates _) _)

theorem resumeHealthAware_moves (h : c.Tidy) (jitter : Bool) :
    Moves c (c.resumeHealthAware jitter) :=
  (Moves.single (.gates _)).trans (resumeWhere_moves (h.withGates _) _ jitter)

theorem pauseAuthenticated_moves (h : c.Tidy) : Moves c c.pauseAuthenticated :=
  (Moves.single (.gates _)).trans (suspendWhere_moves (h.withGates _) _)

theorem resumeAuthenticated_moves (h : c.Tidy) : Moves c c.resumeAuthenticated :=
  (Moves.single (.gates _)).trans (resumeWhere_moves (h.withGates _) _ false)

theorem listen_moves (c : Coordinator) : Moves c c.listen.1 := by
  unfold listen
  split
  · exact .refl
  · exact Moves.single .listen

end Coordinator

end FeedPoller
