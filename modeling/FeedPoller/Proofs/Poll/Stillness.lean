/-
The state of a registration tells whether it is paused.

Whether a registration is paused is asked of the gates each time, while the state is stored.
As long as nobody forces the gates the two agree: the state is that of a paused one exactly
for those that are paused (`Still`).  Nothing is said about timers here, so nothing is asked
of the clock; a registration that was left without a timer, since its deadline could not be
named, is in no other state than one that has its timer.

Nor does any event change what a registration is: one that is there after it has the id and
the options of one that was there before, or an id that nobody had (`Sound.descent`).
-/
import FeedPoller.Proofs.Poll.Coherence

namespace FeedPoller

/-- The state is that of a paused registration exactly if it is paused. -/
def Registration.Still (r : Registration) (g : Gates) : Prop :=
  r.state = .paused ↔ r.isPaused g = true

namespace Registration

variable {r : Registration} {g g' : Gates}

theorem still_paused (hs : r.state = .paused) (hp : r.isPaused g = true) : r.Still g :=
  iff_of_true hs hp

theorem still_active (hs : r.state ≠ .paused) (hp : r.isPaused g = false) : r.Still g :=
  iff_of_false hs (by simp [hp])

theorem Still.of_isPaused (h : r.Still g) (hp : r.isPaused g' = r.isPaused g) : r.Still g' := by
  unfold Still
  rw [hp]
  exact h

end Registration

namespace Coordinator

variable {c c' : Coordinator} {r q : Registration} {g : Gates} {d : Duration}

/-- All registrations have options that a registration is accepted with. -/
def Faultless (c : Coordinator) : Prop := ∀ r ∈ c.registry, r.options.fault? = none

/-- The states of all registrations agree with the gates. -/
def Still (c : Coordinator) : Prop := ∀ r ∈ c.registry, r.Still c.gates

theorem Still.subset (h : c.Still) (hr : ∀ r ∈ c'.registry, r ∈ c.registry)
    (hg : c'.gates = c.gates) : c'.Still :=
  fun r hr' => hg ▸ h r (hr r hr')

/-- Only one registration has been touched, and its state agrees with the gates. -/
theorem Still.of_touched (h : c.Still) (hg : c'.gates = c.gates)
    (hq : ∀ q ∈ c'.registry, (q ∈ c.registry ∧ q.id ≠ r.id) ∨ q.Still c.gates) : c'.Still := by
  intro q hq'
  rw [hg]
  rcases hq q hq' with ⟨hq, -⟩ | hstill
  · exact h q hq
  · exact hstill

/-! ### One registration -/

theorem still_put (hs : r.Still g) (hq : q ∈ (c.put r).registry) :
    (q ∈ c.registry ∧ q.id ≠ r.id) ∨ q.Still g := by
  rcases mem_put.mp hq with hq | ⟨rfl, -⟩
  · exact Or.inl hq
  · exact Or.inr hs

theorem still_suspend (hp : r.isPaused g = true) (hq : q ∈ (c.suspend r).registry) :
    (q ∈ c.registry ∧ q.id ≠ r.id) ∨ q.Still g := by
  have hs : r.suspended.Still g := Registration.still_paused rfl hp
  exact still_put (c := c.disarm r) (r := r.suspended) hs hq

theorem still_schedule (hp : r.isPaused g = false) (hq : q ∈ (c.schedule r d).registry) :
    (q ∈ c.registry ∧ q.id ≠ r.id) ∨ q.Still g := by
  obtain ⟨-, e⟩ | ⟨-, deadline, -, e⟩ | ⟨-, -, e⟩ := schedule_cases c r d <;> rw [e] at hq
  · exact still_put (r := r.parked d)
      (Registration.still_active (by simp [Registration.parked]) hp) hq
  · exact still_put (c := c.disarm r) (r := { r.scheduled with timer := some c.armed })
      (Registration.still_active (by simp [Registration.scheduled]) hp) hq
  · exact still_put (c := c.disarm r) (r := r.scheduled)
      (Registration.still_active (by simp [Registration.scheduled]) hp) hq

theorem still_resumeOne {jitter : Bool} (hp : r.isPaused g = false)
    (hq : q ∈ (resumeOne jitter c r).registry) :
    (q ∈ c.registry ∧ q.id ≠ r.id) ∨ q.Still g := by
  have := still_schedule hp hq
  obtain ⟨draws, e⟩ := c.resumeDelay_draws jitter
  rwa [e] at this

/-! ### Many registrations -/

/-- Closing a gate is in order if those that it applies to are suspended. -/
theorem still_suspendWhere (h : c.Tidy) {applies : Registration → Bool}
    (hp : ∀ r ∈ c.registry, applies r = true → r.isPaused c.gates = true)
    (hrest : ∀ r ∈ c.registry, applies r = false → r.Still c.gates) :
    (c.suspendWhere applies).Still := by
  have hgates : (c.suspendWhere applies).gates = c.gates :=
    foldl_eq (f := suspend) (·.gates) (fun _ _ => rfl) _ c
  have htouched := foldl_touched (f := suspend) (c := c) (P := fun r => r.isPaused c.gates = true)
    (G := fun q => q.Still c.gates) (fun _ _ => rfl) (fun _ _ _ => mem_suspend_of_ne)
    (fun c' _ r hr q hq => still_suspend hr hq) (h.filter_ids applies)
    (fun r hr => (List.mem_filter.mp hr).1)
    (fun r hr => hp r (List.mem_filter.mp hr).1 (List.mem_filter.mp hr).2)
  intro q hq
  rw [hgates]
  rcases htouched q hq with ⟨hq, hno⟩ | hstill
  · refine hrest q hq ?_
    cases ha : applies q with
    | false => rfl
    | true => exact absurd (List.mem_filter.mpr ⟨hq, ha⟩) hno
  · exact hstill

/-- Opening a gate is in order if those that it leaves without a pause are asked to run. -/
theorem still_resumeWhere (h : c.Tidy) {applies : Registration → Bool} (jitter : Bool)
    (hstill : ∀ r ∈ c.registry, r.Still g)
    (hopen : ∀ r : Registration, r.isPaused c.gates = true → r.isPaused g = true)
    (hother : ∀ r, applies r = false → r.isPaused c.gates = r.isPaused g) :
    (c.resumeWhere applies jitter).Still := by
  have hel : ∀ r : Registration, (applies r && r.state == .paused && !r.isPaused c.gates) = true →
      r.isPaused c.gates = false := by
    intro r hr
    simp only [Bool.and_eq_true] at hr
    simpa using hr.2
  have htouched := foldl_touched (f := resumeOne jitter) (c := c)
    (P := fun r => r.isPaused c.gates = false) (G := fun q => q.Still c.gates)
    (fun _ _ => resumeOne_setting) (fun _ _ _ => mem_resumeOne_of_ne)
    (fun c' _ r hr q hq => still_resumeOne hr hq)
    (h.filter_ids fun r => applies r && r.state == .paused && !r.isPaused c.gates)
    (fun r hr => (List.mem_filter.mp hr).1) (fun r hr => hel r (List.mem_filter.mp hr).2)
  intro r hr
  rw [resumeWhere_gates]
  rcases htouched r hr with ⟨hr, hno⟩ | hdone
  · -- Whoever is not asked to run was as paused before the gate opened as it is now.
    refine (hstill r hr).of_isPaused ?_
    cases hc : r.isPaused c.gates with
    | true => exact (hopen r hc).symm
    | false =>
        cases ha : applies r with
        | false => exact hc.symm.trans (hother r ha)
        | true =>
            cases hg : r.isPaused g with
            | false => rfl
            | true =>
                have hstate : r.state = .paused := (hstill r hr).mpr hg
                exact absurd (List.mem_filter.mpr ⟨hr, by simp [ha, hstate, hc]⟩) hno
  · exact hdone

/-! ### Every operation -/

theorem Still.pause (h : c.Still) (key : String) : (c.pause key).Still := by
  unfold Coordinator.pause
  split
  · exact h
  · exact h.of_touched rfl fun q hq => still_suspend rfl hq

theorem Still.resume (h : c.Still) (key : String) (jitter : Bool) :
    (c.resume key jitter).Still := by
  unfold Coordinator.resume
  split
  · exact h
  · next r hf =>
      split
      · exact h
      · next hg =>
          split
          · exact h
          · have hp : { r with explicitlyPaused := false }.isPaused c.gates = false := by
              simpa [Registration.isPaused, Registration.gateClosed] using hg
            exact h.of_touched resumeOne_gates
              fun q (hq : q ∈ (resumeOne jitter c _).registry) => still_resumeOne hp hq

theorem Still.pauseHealthAware (h : c.Still) (ht : c.Tidy) : c.pauseHealthAware.Still := by
  refine still_suspendWhere (ht.withGates _) (fun r _ ha => ?_) fun r hr ha => ?_
  · simp [Registration.isPaused, Registration.gateClosed, ha]
  · refine (h r hr).of_isPaused ?_
    simp [Registration.isPaused, Registration.gateClosed, ha]

theorem Still.pauseAuthenticated (h : c.Still) (ht : c.Tidy) : c.pauseAuthenticated.Still := by
  refine still_suspendWhere (ht.withGates _) (fun r _ ha => ?_) fun r hr ha => ?_
  · simp [Registration.isPaused, Registration.gateClosed, ha]
  · refine (h r hr).of_isPaused ?_
    simp [Registration.isPaused, Registration.gateClosed, ha]

theorem Still.resumeHealthAware (h : c.Still) (ht : c.Tidy) (jitter : Bool) :
    (c.resumeHealthAware jitter).Still := by
  refine still_resumeWhere (ht.withGates _) jitter h
    (fun r => r.isPaused_of_open id (by simp)) fun r ha => ?_
  simp [Registration.isPaused, Registration.gateClosed, ha]

theorem Still.resumeAuthenticated (h : c.Still) (ht : c.Tidy) : c.resumeAuthenticated.Still := by
  refine still_resumeWhere (ht.withGates _) false h
    (fun r => r.isPaused_of_open (by simp) id) fun r ha => ?_
  simp [Registration.isPaused, Registration.gateClosed, ha]

theorem Still.refresh (h : c.Still) (ht : c.Tidy) : c.refresh.1.Still := by
  unfold Coordinator.refresh
  split
  · exact h
  · have hgates : (c.refreshable.foldl (fun c r => c.schedule r .zero) c).gates = c.gates :=
      foldl_eq (·.gates) (fun _ _ => schedule_gates) _ c
    have htouched := foldl_touched (f := fun c r => c.schedule r .zero) (c := c)
      (P := fun r => r.isPaused c.gates = false) (G := fun q => q.Still c.gates)
      (fun _ _ => schedule_setting) (fun _ _ _ => mem_schedule_of_ne)
      (fun c' _ r hr q hq => still_schedule hr hq) (ht.filter_ids _)
      (fun r (hr : r ∈ c.refreshable) => (List.mem_filter.mp hr).1) (fun r hr => by
        have hel := (List.mem_filter.mp hr).2
        simp only [Bool.and_eq_true, Bool.not_eq_true'] at hel
        exact hel.1)
    intro q hq
    rw [hgates]
    rcases htouched q hq with ⟨hq, -⟩ | hstill
    · exact h q hq
    · exact hstill

theorem Still.remove (h : c.Still) (r : Registration) : (c.remove r).Still :=
  h.subset (fun _ hq => (List.mem_filter.mp hq).1) rfl

theorem Still.vacate (h : c.Still) (key : String) : (c.vacate key).Still := by
  obtain ⟨-, e, -⟩ | ⟨r, -, -, e, -⟩ := vacate_cases c key <;> rw [e]
  · exact h
  · exact h.remove r

theorem Still.append (h : c.Still) (o : PollOptions) (awaited : Option Nat) :
    (c.append o awaited).1.Still := by
  have hold : ∀ q ∈ (c.join (c.newcomer o awaited)).registry, q.id ≠ (c.newcomer o awaited).id →
      q.Still c.gates := by
    intro q hq hne
    rcases List.mem_append.mp hq with hq | hq
    · exact h q hq
    · exact absurd (by rw [List.mem_singleton.mp hq]) hne
  obtain ⟨hg, e⟩ | ⟨hg, e⟩ := append_cases c o awaited <;> rw [e]
  · intro q hq
    have hs : { c.newcomer o awaited with state := .paused }.Still c.gates :=
      Registration.still_paused rfl hg
    rcases still_put hs hq with ⟨hq, hne⟩ | hstill
    · exact hold q hq hne
    · exact hstill
  · intro q hq
    rw [schedule_gates]
    have hp : (c.newcomer o awaited).isPaused c.gates = false := hg
    rcases still_schedule hp hq with ⟨hq, hne⟩ | hstill
    · exact hold q hq hne
    · exact hstill

theorem Still.register (h : c.Still) (o : PollOptions) : (c.register o).1.Still := by
  obtain ⟨-, e⟩ | ⟨-, -, e⟩ := register_cases c o <;> rw [e]
  · exact h
  · exact (h.vacate o.key).append o _

theorem Still.settle (h : c.Still) (hd : c.disposed = false) : (c.settle q).Still := by
  obtain ⟨hd', -⟩ | ⟨-, hp, e⟩ | ⟨-, hp, e⟩ := settle_cases c q
  · exact absurd (hd.symm.trans hd') (by simp)
  · rw [e]
    have hs : { q with state := .paused, pendingDelay := none }.Still c.gates :=
      Registration.still_paused rfl hp
    exact h.of_touched rfl fun p hp' => still_put hs hp'
  · rw [e]
    exact h.of_touched schedule_gates fun p hp' =>
      still_schedule (r := { q with pendingDelay := none }) hp hp'

end Coordinator

namespace System

open Coordinator

variable {s : System}

/-- An event by which nobody forces the gates. -/
def Unforced : Event → Prop
  | .forceGates _ => False
  | _ => True

instance : ∀ e, Decidable (Unforced e)
  | .forceGates _ => isFalse id
  | .register _ | .cleanup _ | .pause _ | .resume _ _ | .pauseHealthAware | .resumeHealthAware _
  | .pauseAuthenticated | .resumeAuthenticated | .refresh | .listen | .dispose | .release
  | .elapse _ | .wake _ | .fire _ | .finish _ _ => isTrue trivial

/-- An event of a history in which nobody forces the gates and no timer has to wait for its turn. -/
def Natural : Event → Prop
  | .forceGates _ => False
  | .wake _ => False
  | _ => True

theorem still_call {f : Coordinator → Coordinator} (h : s.coordinator.Still)
    (hf : (f s.coordinator).Still) : (s.call f).coordinator.Still := by
  unfold System.call
  split
  · exact hf
  · exact h

/-- The states go on to agree with the gates. -/
theorem Sound.still_unforced (hs : s.Sound) (h : s.coordinator.Still) {e : Event}
    (he : Unforced e) : (s.step e).coordinator.Still := by
  have ht := hs.tidy
  cases e with
  | register o => exact still_call h (h.register o)
  | cleanup handle =>
      refine still_call h ?_
      obtain ⟨-, e⟩ | ⟨r, -, -, e⟩ := cleanup_cases s.coordinator handle <;> rw [e]
      · exact h
      · exact h.remove r
  | pause key => exact still_call h (h.pause key)
  | resume key jitter => exact still_call h (h.resume key jitter)
  | pauseHealthAware => exact still_call h (h.pauseHealthAware ht)
  | resumeHealthAware jitter => exact still_call h (h.resumeHealthAware ht jitter)
  | pauseAuthenticated => exact still_call h (h.pauseAuthenticated ht)
  | resumeAuthenticated => exact still_call h (h.resumeAuthenticated ht)
  | refresh => exact still_call h (h.refresh ht)
  | listen =>
      refine still_call h ?_
      unfold Coordinator.listen
      split <;> exact h
  | forceGates g => exact he.elim
  | dispose =>
      refine still_call h ?_
      obtain ⟨-, e⟩ | ⟨-, -, hnil, -⟩ := dispose_cases ht
      · rw [e]; exact h
      · intro r hr
        rw [hnil] at hr
        exact absurd hr (by simp)
  | release => exact fun r hr => absurd hr (by simp [System.step, System.release])
  | elapse d => exact h
  | wake n =>
      show (s.wake n).coordinator.Still
      unfold System.wake
      split <;> exact h
  | fire n =>
      show (s.fire n).1.coordinator.Still
      obtain e | e | ⟨-, -, t, -, -, -, r, hr, -, -, ⟨hp, e⟩ | ⟨hp, e⟩⟩ := hs.fire_cases n <;>
        rw [e]
      · exact h
      · exact h
      · exact h.of_touched rfl fun q hq =>
          still_put (c := s.coordinator.disarm r)
            (Registration.still_paused (r := r.skipped) rfl hp) hq
      · exact h.of_touched rfl fun q hq => still_put (c := s.coordinator.disarm r)
          (Registration.still_active (r := r.begun) (by simp [Registration.begun]) hp) hq
  | finish id failed =>
      show (s.finish id failed).coordinator.Still
      obtain ⟨-, e⟩ | ⟨run, -, -, ⟨-, e⟩ | ⟨r, hr, -, e⟩⟩ := hs.finish_cases id failed <;> rw [e]
      · exact h
      · exact h
      · exact h.settle (hs.undisposed hr)

theorem Natural.unforced {e : Event} (he : Natural e) : Unforced e := by
  cases e with
  | forceGates g => exact he
  | _ => exact trivial

theorem Sound.still_step (hs : s.Sound) (h : s.coordinator.Still) {e : Event} (he : Natural e) :
    (s.step e).coordinator.Still :=
  hs.still_unforced h he.unforced

/-! ### Who registrations are -/

/-- Every registration is one from before, or has a new id and options that were accepted. -/
theorem Sound.descent (hs : s.Sound) (e : Event) {r' : Registration}
    (hr' : r' ∈ (s.step e).coordinator.registry) :
    (s.coordinator.nextId ≤ r'.id ∧ r'.options.fault? = none) ∨
      ∃ r ∈ s.coordinator.registry, r.id = r'.id ∧ r.options = r'.options := by
  have hkept : ∀ {r q : Registration}, r ∈ s.coordinator.registry → q.account = r'.account →
      q.id = r.id → q.options = r.options →
      ∃ r ∈ s.coordinator.registry, r.id = r'.id ∧ r.options = r'.options := by
    intro r q hr ha hid ho
    exact ⟨r, hr, hid.symm.trans (Registration.id_of_account ha),
      ho.symm.trans (Registration.eq_of_account (·.options) (fun _ => rfl) ha)⟩
  obtain ⟨r, hr, ha | ha⟩ | ⟨r, hr, run, failed, ha⟩ | ⟨o, awaited, hfault, ha⟩ :=
    (hs.outcome e).origin hs hr'
  · exact Or.inr (hkept hr ha rfl rfl)
  · exact Or.inr (hkept hr ha rfl rfl)
  · exact Or.inr (hkept hr ha (r.afterRun_sameTimer run _ failed).id
      (r.afterRun_plan run _ failed).1)
  · have hid : ((s.coordinator.vacate o.key).newcomer o awaited).id = s.coordinator.nextId :=
      vacate_nextId _ _
    have ho : r'.options = o := (Registration.eq_of_account (·.options) (fun _ => rfl) ha).symm
    exact Or.inl ⟨Nat.le_of_eq (hid.symm.trans (Registration.id_of_account ha)), ho ▸ hfault⟩

/-- What is registered always has options that were accepted. -/
theorem Sound.faultless_step (hs : s.Sound) (h : s.coordinator.Faultless) (e : Event) :
    (s.step e).coordinator.Faultless := by
  intro r' hr'
  rcases hs.descent e hr' with ⟨-, hfault⟩ | ⟨r, hr, -, ho⟩
  · exact hfault
  · exact ho ▸ h r hr

/-- A registration was made under this id for this key, and no other goes by the id. -/
structure Knows (s : System) (id : Nat) (key : String) : Prop where
  known : id < s.coordinator.nextId
  registry : ∀ r ∈ s.coordinator.registry, r.id = id → r.key = key
  runs : ∀ run ∈ s.runs, run.id = id → run.key = key

theorem Sound.knows (hs : s.Sound) {r : Registration} (hr : r ∈ s.coordinator.registry) :
    s.Knows r.id r.key where
  known := hs.tidy.fresh r hr
  registry := fun q hq hid => by rw [hs.tidy.uniqueIds.eq hq hr hid]
  runs := by
    intro run hrun hid
    have hname : r.runId = r.id :=
      Registration.runId_of_none (hs.books.own r hr run hrun hid)
    have hf : r.inFlight = true := (hs.books.marked r hr).mpr ⟨run, hrun, hid.trans hname.symm⟩
    exact hs.books.keyed r hr run hrun
      (Registration.awaitedRun_eq_some.mpr ⟨hf, hname.trans hid.symm⟩)

/-- Runs that begin are those of registrations. -/
theorem Sound.run_origin (hs : s.Sound) (e : Event) {run : Run} (hrun : run ∈ (s.step e).runs) :
    run ∈ s.runs ∨ ∃ r ∈ s.coordinator.registry, r.id = run.id ∧ r.key = run.key := by
  have ho := hs.outcome e
  generalize s.step e = s' at ho hrun
  cases ho with
  | begin _ _ hr =>
      rcases List.mem_append.mp hrun with hrun | hrun
      · exact Or.inl hrun
      · rw [List.mem_singleton.mp hrun]
        exact Or.inr ⟨_, hr, rfl, rfl⟩
  | unnoticed | settle => exact Or.inl (List.mem_of_mem_eraseP hrun)
  | nothing | moves | register | cleanup | dispose | release | elapse | wake | late | skip =>
      exact Or.inl hrun

theorem Sound.knows_step (hs : s.Sound) {id : Nat} {key : String} (h : s.Knows id key) (e : Event) :
    (s.step e).Knows id key where
  known := Nat.lt_of_lt_of_le h.known ((hs.outcome e).nextId_le hs)
  registry := by
    intro r' hr' hid'
    rcases hs.descent e hr' with ⟨hnew, -⟩ | ⟨r, hr, hid, ho⟩
    · have := h.known
      omega
    · exact (congrArg PollOptions.key ho).symm.trans (h.registry r hr (hid.trans hid'))
  runs := by
    intro run hrun hid
    rcases hs.run_origin e hrun with hrun | ⟨r, hr, hrid, hkey⟩
    · exact h.runs run hrun hid
    · exact hkey.symm.trans (h.registry r hr (hrid.trans hid))

/-- No timer ever has to wait for its turn. -/
theorem Sound.awake_step (hs : s.Sound) (h : s.woken = []) {e : Event} (he : Natural e) :
    (s.step e).woken = [] := by
  have ho := hs.outcome e
  generalize s.step e = s' at ho
  cases ho with
  | wake => exact he.elim
  | late | skip | begin => simp [h]
  | nothing | moves | register | cleanup | dispose | release | elapse | unnoticed | settle =>
      exact h

end System

end FeedPoller
