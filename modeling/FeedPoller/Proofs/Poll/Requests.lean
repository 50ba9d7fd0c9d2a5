/-
Requests that have to wait for the end of a run.

A run that is asked for while another goes on waits for its end.  Of several such requests the last
one counts, and a pause forgets them all.  So what is done when the run ends depends on the whole
history of the registration since the run began, or since it inherited the run.  `standing` goes
through that history and says which request is left, from the calls alone: it does not look at
what the registration keeps.

That the registration keeps just this request is shown operation by operation (`Owes`).  What
carries it through the operations on many registrations is that none of them is asked twice,
and that each draws its delay after those before it have drawn theirs (`drawn`).  A gate that
opens asks those whose pause is over, which is what their states say as long as nobody forces
the gates.
-/
import FeedPoller.Proofs.Poll.Rhythm

namespace FeedPoller

/-- Whether a resume by name of a key asks for a run: it lifts a pause, and no gate is closed. -/
def Registration.resumable (r : Registration) (key : String) (g : Gates) : Bool :=
  r.key == key && r.explicitlyPaused && !r.gateClosed g

namespace Coordinator

variable {c : Coordinator} {r q : Registration} {d : Duration} {d? : Option Duration} {id n : Nat}
  {jitter : Bool}

/-! ### Delays that are drawn -/

/-- The delay of a resumed poll when a number of others have drawn theirs before. -/
def drawn (c : Coordinator) (jitter : Bool) (before : Nat) : Duration :=
  if !jitter || c.config.jitterMax.millis64 == 0 then .zero
  else .ofMillis (c.draws.upcoming.getD before 0 % c.config.jitterMax.millis64)

theorem resumeDelay_drawn (c : Coordinator) (jitter : Bool) :
    (c.resumeDelay jitter).1 = c.drawn jitter 0 := by
  unfold resumeDelay drawn
  dsimp only
  split
  · rfl
  · simp [Draws.below, List.headD_eq_head?_getD, List.getD_eq_getElem?_getD, List.head?_eq_getElem?]

theorem drawn_resumeDelay (c : Coordinator) (jitter : Bool) (n : Nat) :
    (c.resumeDelay jitter).2.drawn jitter n = c.drawn jitter (n + 1) := by
  unfold resumeDelay
  dsimp only
  split
  · next hnone => rw [drawn, drawn, if_pos hnone, if_pos hnone]
  · simp [drawn, Draws.below, List.getD_eq_getElem?_getD]

theorem drawn_resumeOne (c : Coordinator) (r : Registration) (jitter : Bool) (n : Nat) :
    (resumeOne jitter c r).drawn jitter n = c.drawn jitter (n + 1) := by
  obtain ⟨q, _, _, -, -, e⟩ :=
    schedule_shape (c.resumeDelay jitter).2 r (c.resumeDelay jitter).1
  rw [resumeOne, e]
  exact c.drawn_resumeDelay jitter n

/-! ### What is kept -/

/-- While a run goes on for the registration with an id, a certain request is kept for it. -/
def Owes (c : Coordinator) (id : Nat) (d? : Option Duration) : Prop :=
  ∀ r ∈ c.registry, r.id = id → r.inFlight = true → r.pendingDelay = d?

theorem any_findId (ht : c.Tidy) {p : Registration → Bool} :
    (c.findId? id).any p = true ↔ ∃ r ∈ c.registry, r.id = id ∧ p r = true := by
  rw [Option.any_eq_true_iff_get]
  constructor
  · rintro ⟨hsome, hp⟩
    obtain ⟨r, hr⟩ := Option.isSome_iff_exists.mp hsome
    obtain ⟨hmem, hid⟩ := findId?_mem hr
    simp only [hr, Option.get_some] at hp
    exact ⟨r, hmem, hid, hp⟩
  · rintro ⟨r, hr, rfl, hp⟩
    have hfound := findId?_of_mem ht.uniqueIds hr
    simp [hfound, hp]

theorem Owes.put (h : c.Owes id d?)
    (hr : r.id = id → r.inFlight = true → r.pendingDelay = d?) : (c.put r).Owes id d? := by
  intro q hq hid
  rcases mem_put.mp hq with ⟨hq, -⟩ | ⟨rfl, -⟩
  · exact h q hq hid
  · exact hr hid

theorem Owes.suspend (h : c.Owes id d?) (r : Registration) :
    (c.suspend r).Owes id (if r.id == id then none else d?) := by
  intro q hq hid hflight
  rcases mem_put.mp hq with ⟨hq, hne⟩ | ⟨rfl, -⟩
  · have hne' : r.id ≠ id := fun hr => hne (hid.trans hr.symm)
    rw [if_neg (by simpa using hne')]
    exact h q hq hid hflight
  · have hid' : r.id = id := hid
    simp [hid', Registration.suspended]

theorem Owes.schedule (h : c.Owes id d?) (r : Registration) (d : Duration) :
    (c.schedule r d).Owes id (if r.id == id then some d else d?) := by
  intro q hq hid hflight
  have hcases : (q ∈ c.registry ∧ q.id ≠ r.id) ∨
      (q.id = r.id ∧ (q.inFlight = true → q.pendingDelay = some d)) := by
    obtain ⟨-, e⟩ | ⟨hidle, deadline, -, e⟩ | ⟨hidle, -, e⟩ := schedule_cases c r d <;>
      rw [e] at hq <;> rcases mem_put.mp hq with hq | ⟨rfl, -⟩
    · exact Or.inl hq
    · exact Or.inr ⟨rfl, fun _ => rfl⟩
    · exact Or.inl hq
    · exact Or.inr ⟨rfl, fun hbusy => absurd (hidle.symm.trans hbusy) (by simp)⟩
    · exact Or.inl hq
    · exact Or.inr ⟨rfl, fun hbusy => absurd (hidle.symm.trans hbusy) (by simp)⟩
  obtain ⟨hq, hne⟩ | ⟨hsame, hkept⟩ := hcases
  · have hne' : r.id ≠ id := fun hr => hne (hid.trans hr.symm)
    rw [if_neg (by simpa using hne')]
    exact h q hq hid hflight
  · rw [if_pos (by simpa using hsame.symm.trans hid)]
    exact hkept hflight

theorem Owes.resumeOne (h : c.Owes id d?) (r : Registration) (jitter : Bool) :
    (resumeOne jitter c r).Owes id (if r.id == id then some (c.drawn jitter 0) else d?) := by
  obtain ⟨draws, e⟩ := c.resumeDelay_draws jitter
  rw [Coordinator.resumeOne, resumeDelay_drawn, e]
  exact Owes.schedule (c := { c with draws }) h r _

/-! ### Many registrations -/

theorem Owes.foldl_suspend {rs : List Registration} (h : c.Owes id d?) :
    (rs.foldl Coordinator.suspend c).Owes id (if rs.any (·.id == id) then none else d?) := by
  induction rs generalizing c d? with
  | nil => exact h
  | cons r rest ih =>
    have hrest := ih (h.suspend r)
    cases hr : r.id == id <;> simpa [hr] using hrest

/-- Each is asked after those before it have drawn their delays. -/
theorem Owes.foldl_resumeOne {rs : List Registration} (h : c.Owes id d?)
    (hids : (rs.map (·.id)).Nodup) :
    (rs.foldl (Coordinator.resumeOne jitter) c).Owes id
      (((rs.findIdx? (·.id == id)).map (c.drawn jitter)).or d?) := by
  induction rs generalizing c d? with
  | nil => exact h
  | cons r rest ih =>
    obtain ⟨hnew, hnodup⟩ := List.nodup_cons.mp hids
    have hrest := ih (h.resumeOne r jitter) hnodup
    have hdrawn : (Coordinator.resumeOne jitter c r).drawn jitter =
        fun n => c.drawn jitter (n + 1) :=
      funext (c.drawn_resumeOne r jitter)
    rw [hdrawn] at hrest
    rw [List.foldl_cons, List.findIdx?_cons]
    cases hr : r.id == id with
    | true =>
      have hnone : rest.findIdx? (·.id == id) = none := by
        refine List.findIdx?_eq_none_iff.mpr fun q hq => ?_
        have hne : q.id ≠ r.id := fun hid => hnew (List.mem_map.mpr ⟨q, hq, hid⟩)
        have hrid : r.id = id := by simpa using hr
        simpa [hrid] using hne
      simpa [hr, hnone] using hrest
    | false =>
      rw [hr] at hrest
      cases hi : rest.findIdx? (·.id == id) <;> simpa [hi] using hrest

theorem Owes.suspendWhere (h : c.Owes id d?) (ht : c.Tidy) (applies : Registration → Bool) :
    (c.suspendWhere applies).Owes id (if (c.findId? id).any applies then none else d?) := by
  have hany : ((c.registry.filter applies).any fun r => r.id == id) =
      (c.findId? id).any applies := by
    rw [Bool.eq_iff_iff, any_findId ht, List.any_eq_true]
    constructor
    · rintro ⟨r, hr, hid⟩
      exact ⟨r, (List.mem_filter.mp hr).1, by simpa using hid, (List.mem_filter.mp hr).2⟩
    · rintro ⟨r, hr, hid, happlies⟩
      exact ⟨r, List.mem_filter.mpr ⟨hr, happlies⟩, by simpa using hid⟩
  rw [← hany]
  exact h.foldl_suspend

/-- The registrations whose pause is over when the gates become others. -/
def lifted (c : Coordinator) (gates : Gates) : List Registration :=
  c.registry.filter fun r => r.isPaused c.gates && !r.isPaused gates

/-- How many of them come before the registration with an id, if its own pause is over. -/
def turn? (c : Coordinator) (gates : Gates) (id : Nat) : Option Nat :=
  (c.lifted gates).findIdx? (·.id == id)

/-- What is asked for when a gate opens goes by the pauses, if the states agree with them. -/
theorem Still.resumeWhere_eq (h : c.Still) {gates : Gates} {applies : Registration → Bool}
    (hother : ∀ r, applies r = false → r.isPaused gates = r.isPaused c.gates) :
    { c with gates }.resumeWhere applies jitter =
      (c.lifted gates).foldl (Coordinator.resumeOne jitter) { c with gates } := by
  have hsame : c.registry.filter (fun r => applies r && r.state == .paused && !r.isPaused gates) =
      c.lifted gates := by
    refine List.filter_congr fun r hr => ?_
    have hstate : (r.state == .paused) = r.isPaused c.gates := by
      rw [Bool.eq_iff_iff, beq_iff_eq]
      exact h r hr
    rw [hstate]
    cases happlies : applies r with
    | true => simp
    | false => simp [hother r happlies]
  rw [← hsame]
  rfl

theorem Owes.resumeWhere (h : c.Owes id d?) (ht : c.Tidy) (hstill : c.Still) {gates : Gates}
    {applies : Registration → Bool}
    (hother : ∀ r, applies r = false → r.isPaused gates = r.isPaused c.gates) :
    ({ c with gates }.resumeWhere applies jitter).Owes id
      (((c.turn? gates id).map (c.drawn jitter)).or d?) := by
  rw [hstill.resumeWhere_eq hother]
  exact Owes.foldl_resumeOne (c := { c with gates }) h (ht.filter_ids _)

/-! ### Every operation -/

theorem Owes.pause (h : c.Owes id d?) (ht : c.Tidy) (key : String) :
    (c.pause key).Owes id (if (c.findId? id).any (·.key == key) then none else d?) := by
  unfold Coordinator.pause
  cases hf : c.find? key with
  | none =>
    have hnot : ¬ (c.findId? id).any (·.key == key) = true := by
      rw [any_findId ht]
      rintro ⟨r, hr, -, hkey⟩
      exact find?_none hf hr (by simpa using hkey)
    rw [if_neg hnot]
    exact h
  | some r =>
    obtain ⟨hr, hkey⟩ := find?_mem hf
    have hany : (r.id == id) = (c.findId? id).any (·.key == key) := by
      rw [Bool.eq_iff_iff, any_findId ht]
      constructor
      · exact fun hid => ⟨r, hr, by simpa using hid, by simpa using hkey⟩
      · rintro ⟨q, hq, hid, hqkey⟩
        have hqkey' : q.key = key := by simpa using hqkey
        rw [ht.key_unique hr hq (hkey.trans hqkey'.symm)]
        simpa using hid
    rw [← hany]
    exact h.suspend { r with explicitlyPaused := true }

theorem Owes.resume (h : c.Owes id d?) (ht : c.Tidy) (hstill : c.Still) (key : String)
    (jitter : Bool) :
    (c.resume key jitter).Owes id
      ((if (c.findId? id).any (·.resumable key c.gates) then some (c.drawn jitter 0) else none).or
        d?) := by
  have hidle (hno : ∀ r ∈ c.registry, r.resumable key c.gates = false) : c.Owes id
      ((if (c.findId? id).any (·.resumable key c.gates) then some (c.drawn jitter 0) else none).or
        d?) := by
    have hnot : ¬ (c.findId? id).any (·.resumable key c.gates) = true := by
      rw [any_findId ht]
      rintro ⟨r, hr, -, hyes⟩
      exact absurd (hyes.symm.trans (hno r hr)) (by simp)
    rw [if_neg hnot]
    exact h
  unfold Coordinator.resume
  cases hf : c.find? key with
  | none =>
    refine hidle fun r hr => ?_
    simp [Registration.resumable, find?_none hf hr]
  | some r =>
    obtain ⟨hr, hkey⟩ := find?_mem hf
    have honly : ∀ q ∈ c.registry, q.key = key → q = r :=
      fun q hq hqkey => ht.key_unique hq hr (hqkey.trans hkey.symm)
    dsimp only
    split
    · next hclosed =>
      refine hidle fun q hq => ?_
      by_cases hqkey : q.key = key
      · simp [Registration.resumable, honly q hq hqkey, hclosed]
      · simp [Registration.resumable, hqkey]
    · next hopen =>
      split
      · next hrunning =>
        refine hidle fun q hq => ?_
        by_cases hqkey : q.key = key
        · have hflag : r.explicitlyPaused = false := by
            simp only [Bool.and_eq_true, Bool.not_eq_true'] at hrunning
            exact hrunning.1
          simp [Registration.resumable, honly q hq hqkey, hflag]
        · simp [Registration.resumable, hqkey]
      · next hpaused =>
        -- No gate is closed, so a paused one is paused by name.
        have hflag : r.explicitlyPaused = true := by
          cases hflag : r.explicitlyPaused with
          | true => rfl
          | false =>
            have hnot : r.isPaused c.gates = false := by
              simpa [Registration.isPaused, hflag] using hopen
            have hstate : r.state ≠ .paused := fun hstate =>
              absurd (hnot.symm.trans ((hstill r hr).mp hstate)) (by simp)
            exact absurd (by simp [hflag, hstate]) hpaused
        have hany : (r.id == id) = (c.findId? id).any (·.resumable key c.gates) := by
          rw [Bool.eq_iff_iff, any_findId ht]
          constructor
          · exact fun hid => ⟨r, hr, by simpa using hid, by
              simpa [Registration.resumable, hkey, hflag] using hopen⟩
          · rintro ⟨q, hq, hid, hyes⟩
            have hqkey : q.key = key := by
              simp only [Registration.resumable, Bool.and_eq_true, beq_iff_eq] at hyes
              exact hyes.1.1
            rw [← honly q hq hqkey]
            simpa using hid
        have hasked := h.resumeOne { r with explicitlyPaused := false } jitter
        rw [← hany]
        cases hrid : r.id == id <;> simpa [hrid] using hasked

/-- A refresh asks nobody during a run. -/
theorem Owes.refresh (h : c.Owes id d?) (ht : c.Tidy) : c.refresh.1.Owes id d? := by
  unfold Coordinator.refresh
  split
  · exact h
  · have htouched := foldl_touched (f := fun c r => c.schedule r .zero) (c := c)
      (P := fun r => r.inFlight = false) (G := fun q => q.inFlight = false)
      (fun _ _ => schedule_setting) (fun _ _ _ => mem_schedule_of_ne) (fun c' _ r hr q hq => ?_)
      (ht.filter_ids _) (fun r (hr : r ∈ c.refreshable) => (List.mem_filter.mp hr).1)
      (fun r hr => ?_)
    · intro q hq hid hflight
      rcases htouched q hq with ⟨hq, -⟩ | hidle
      · exact h q hq hid hflight
      · exact absurd (hidle.symm.trans hflight) (by simp)
    · obtain ⟨p, _, _, ha, -, e⟩ := schedule_shape c' r .zero
      rw [e] at hq
      have hidle : p.inFlight = r.inFlight :=
        Registration.eq_of_account (·.inFlight) (fun _ => rfl) ha
      rcases mem_put.mp hq with ⟨hq, hne⟩ | ⟨rfl, -⟩
      · exact Or.inl ⟨hq, by rwa [← Registration.id_of_account ha]⟩
      · exact Or.inr (hidle.trans hr)
    · have hel := (List.mem_filter.mp hr).2
      simp only [Bool.and_eq_true, Bool.not_eq_true'] at hel
      exact hel.2

/-- A newcomer that no gate is closed to is asked for its first run. -/
theorem Owes.append (h : c.Owes id d?) (hunborn : c.nextId ≤ id → d? = none) (o : PollOptions)
    (awaited : Option Nat) :
    (c.append o awaited).1.Owes id
      ((if c.nextId == id && !(c.newcomer o none).gateClosed c.gates then
        some (c.staggerDelay c.registry.length) else none).or d?) := by
  have hjoined : (c.join (c.newcomer o awaited)).Owes id d? := by
    intro q hq hid hflight
    rcases List.mem_append.mp hq with hq | hq
    · exact h q hq hid hflight
    · rw [List.mem_singleton.mp hq] at hid ⊢
      exact (hunborn (Nat.le_of_eq hid)).symm
  obtain ⟨hclosed, e⟩ | ⟨hopen, e⟩ := append_cases c o awaited
  · have hgate : (c.newcomer o none).gateClosed c.gates = true := hclosed
    rw [e, hgate, Bool.not_true, Bool.and_false]
    exact hjoined.put fun hid _ => (hunborn (Nat.le_of_eq hid)).symm
  · have hgate : (c.newcomer o none).gateClosed c.gates = false := hopen
    have hasked := hjoined.schedule (c.newcomer o awaited) (c.staggerDelay c.registry.length)
    have hnew : (c.newcomer o awaited).id = c.nextId := rfl
    rw [hnew] at hasked
    rw [e, hgate, Bool.not_false, Bool.and_true]
    cases hid : c.nextId == id <;> simpa [hid] using hasked

/-- Whoever has waited for the end of a run waits no longer. -/
theorem Owes.settle (h : c.Owes id d?) (hidle : q.inFlight = false) : (c.settle q).Owes id d? := by
  obtain ⟨p, _, _, ha, -, e⟩ := settle_shape c q
  have hp : p.inFlight = q.inFlight := Registration.eq_of_account (·.inFlight) (fun _ => rfl) ha
  rw [e]
  exact Owes.put (c := c) h fun _ hflight => absurd ((hp.trans hidle).symm.trans hflight) (by simp)

end Coordinator

namespace System

open Coordinator

variable {s : System} {r : Registration} {e : Event} {d? : Option Duration} {poll : Nat}

/-- Whether a call registers a poll. -/
def admits (s : System) (o : PollOptions) : Bool := !s.ledger.closed && o.fault?.isNone

/--
The delay of the run that an event asks for, of the registration with an id.  Its registration
itself asks for the first one, if no gate is closed; a resume by name asks if it lifts a pause,
and a gate that opens asks those whose pause is over by that.
-/
def asks? (s : System) (id : Nat) : Event → Option Duration
  | .register o =>
      let others := s.coordinator.vacate o.key
      if s.admits o && (others.nextId == id && !(others.newcomer o none).gateClosed others.gates)
      then some (others.staggerDelay others.registry.length) else none
  | .resume key jitter =>
      if (s.coordinator.findId? id).any (·.resumable key s.coordinator.gates)
      then some (s.coordinator.drawn jitter 0) else none
  | .resumeHealthAware jitter =>
      (s.coordinator.turn? { s.coordinator.gates with backendAvailable := true } id).map
        (s.coordinator.drawn jitter)
  | .resumeAuthenticated =>
      (s.coordinator.turn? { s.coordinator.gates with authGranted := true } id).map fun _ => .zero
  | _ => none

/--
Whether an event makes the registration with an id forget what was asked for: it is paused, by name
or by a gate that applies to it, or a run of it begins.
-/
def forgets (s : System) (id : Nat) : Event → Bool
  | .pause key => (s.coordinator.findId? id).any (·.key == key)
  | .pauseHealthAware => (s.coordinator.findId? id).any (·.options.pauseWhenBackendDown)
  | .pauseAuthenticated => (s.coordinator.findId? id).any (·.options.requiresAuth)
  | .fire n => (s.fire n).2.any (·.id == id)
  | _ => false

/-- The request for a run that stands after an event, if one or none stood before it. -/
def remaining (s : System) (id : Nat) (d? : Option Duration) (e : Event) : Option Duration :=
  if s.forgets id e then none else (s.asks? id e).or d?

/-- The request for a run of the registration with an id that stands after a history. -/
def standing (id : Nat) : System → Option Duration → List Event → Option Duration
  | _, d?, [] => d?
  | s, d?, e :: rest => (s.step e).standing id (s.remaining id d? e) rest

theorem Sound.owes_call (hs : s.Sound) {f : Coordinator → Coordinator}
    (hf : (f s.coordinator).Owes poll d?) : (s.call f).coordinator.Owes poll d? := by
  unfold System.call
  split
  · exact hf
  · next hgone =>
    intro q hq
    rw [hs.gone (by simpa using hgone)] at hq
    exact absurd hq List.not_mem_nil

theorem Sound.owes_register (hs : s.Sound) (h : s.coordinator.Owes poll d?)
    (hunborn : s.coordinator.nextId ≤ poll → d? = none) (o : PollOptions) :
    (s.step (.register o)).coordinator.Owes poll (s.remaining poll d? (.register o)) := by
  cases ha : s.alive with
  | false =>
    show (s.call fun c => (c.register o).1).coordinator.Owes poll _
    intro q hq
    rw [System.call, if_neg (by simp [ha]), hs.gone ha] at hq
    exact absurd hq List.not_mem_nil
  | true =>
    refine hs.owes_call ?_
    obtain ⟨hrefused, e⟩ | ⟨hfault, hdisposed, e⟩ := register_cases s.coordinator o
    · have hnot : s.admits o = false := by
        rcases hrefused with hfault | hdisposed
        · simp [admits, hfault]
        · simp [admits, ledger, hdisposed]
      rw [e, remaining, asks?, hnot]
      exact h
    · have hadmits : s.admits o = true := by simp [admits, ledger, ha, hfault, hdisposed]
      have hvacated : (s.coordinator.vacate o.key).Owes poll d? :=
        fun q hq => h q (mem_vacate hs.tidy hq).1
      rw [e, remaining, asks?, hadmits, Bool.true_and]
      exact hvacated.append (by rwa [vacate_nextId]) o _

/-- Every event leaves the registration with what the history says that is asked for. -/
theorem Sound.owes_step (hs : s.Sound) (hstill : s.coordinator.Still)
    (hprompt : s.coordinator.Prompt) (h : s.coordinator.Owes poll d?)
    (hunborn : s.coordinator.nextId ≤ poll → d? = none) (he : Unforced e) :
    (s.step e).coordinator.Owes poll (s.remaining poll d? e) := by
  have ht := hs.tidy
  cases e with
  | register o => exact hs.owes_register h hunborn o
  | cleanup handle =>
    refine hs.owes_call ?_
    obtain ⟨-, e⟩ | ⟨p, -, -, e⟩ := cleanup_cases s.coordinator handle <;> rw [e]
    · exact h
    · exact fun q hq => h q (mem_remove.mp hq).1
  | pause key => exact hs.owes_call (h.pause ht key)
  | resume key jitter => exact hs.owes_call (h.resume ht hstill key jitter)
  | pauseHealthAware =>
    exact hs.owes_call (Owes.suspendWhere (c := { s.coordinator with
      gates := { s.coordinator.gates with backendAvailable := false } }) h (ht.withGates _) _)
  | resumeHealthAware jitter =>
    exact hs.owes_call (h.resumeWhere ht hstill fun r happlies => by
      simp [Registration.isPaused, Registration.gateClosed, happlies])
  | pauseAuthenticated =>
    exact hs.owes_call (Owes.suspendWhere (c := { s.coordinator with
      gates := { s.coordinator.gates with authGranted := false } }) h (ht.withGates _) _)
  | resumeAuthenticated =>
    exact hs.owes_call (h.resumeWhere ht hstill fun r happlies => by
      simp [Registration.isPaused, Registration.gateClosed, happlies])
  | refresh => exact hs.owes_call (h.refresh ht)
  | listen =>
    refine hs.owes_call ?_
    unfold Coordinator.listen
    split <;> exact h
  | forceGates g => exact he.elim
  | dispose =>
    refine hs.owes_call ?_
    obtain ⟨-, e⟩ | ⟨-, -, hnil, -⟩ := dispose_cases ht
    · rw [e]
      exact h
    · intro q hq
      rw [hnil] at hq
      exact absurd hq List.not_mem_nil
  | release => exact fun q hq => absurd hq List.not_mem_nil
  | elapse d => exact h
  | wake n =>
    show (s.wake n).coordinator.Owes poll d?
    unfold System.wake
    split <;> exact h
  | fire n =>
    show (s.fire n).1.coordinator.Owes poll (if (s.fire n).2.any (·.id == poll) then none else d?)
    obtain e | e | ⟨-, -, t, -, -, -, q, hq, -, hqt, ⟨-, e⟩ | ⟨-, e⟩⟩ := hs.fire_cases n <;> rw [e]
    · exact h
    · exact h
    · have hidle := ht.idle q hq (by simp [hqt])
      exact Owes.put (c := s.coordinator.disarm q) (r := q.skipped) h
        fun _ hflight => absurd (hidle.symm.trans hflight) (by simp)
    · have hnone := hprompt q hq (ht.idle q hq (by simp [hqt]))
      intro p hp hid hflight
      rcases mem_put.mp hp with ⟨hp, hne⟩ | ⟨rfl, -⟩
      · have hne' : q.id ≠ poll := fun hq => hne (hid.trans hq.symm)
        simpa [hne'] using h p hp hid hflight
      · have hid' : q.id = poll := hid
        simpa [hid', Registration.begun] using hnone
  | finish id failed =>
    show (s.finish id failed).coordinator.Owes poll d?
    obtain ⟨-, e⟩ | ⟨run, -, -, ⟨-, e⟩ | ⟨q, -, -, e⟩⟩ := hs.finish_cases id failed <;> rw [e]
    · exact h
    · exact h
    · exact h.settle (q.afterRun_plan run s.coordinator.clock.wall failed).2.2

/-- Nothing is asked of a registration that has not been made. -/
theorem Sound.unborn_step (hs : s.Sound) (hunborn : s.coordinator.nextId ≤ poll → d? = none)
    (hle : (s.step e).coordinator.nextId ≤ poll) : s.remaining poll d? e = none := by
  have hbefore : s.coordinator.nextId ≤ poll := Nat.le_trans ((hs.outcome e).nextId_le hs) hle
  have hno : ∀ q ∈ s.coordinator.registry, q.id ≠ poll := by
    intro q hq
    have := hs.tidy.fresh q hq
    omega
  have hfind : s.coordinator.findId? poll = none :=
    List.find?_eq_none.mpr fun q hq => by simpa using hno q hq
  have hturn : ∀ gates, s.coordinator.turn? gates poll = none := by
    intro gates
    refine List.findIdx?_eq_none_iff.mpr fun q hq => ?_
    simpa using hno q (List.mem_filter.mp hq).1
  have hasks : s.asks? poll e = none := by
    cases e with
    | register o =>
      rw [hs.nextId_step] at hle
      cases hadmits : s.admits o with
      | false => simp [asks?, hadmits]
      | true =>
        simp only [admits, Bool.and_eq_true, Bool.not_eq_true', Option.isNone_iff_eq_none]
          at hadmits
        have hnext : s.ledger.next + 1 ≤ poll := by
          simpa [Ledger.enter, hadmits.1, hadmits.2] using hle
        have hne : s.coordinator.nextId ≠ poll := Nat.ne_of_lt hnext
        simp [asks?, vacate_nextId, hne]
    | resume key jitter => simp [asks?, hfind]
    | resumeHealthAware jitter => simp [asks?, hturn]
    | resumeAuthenticated => simp [asks?, hturn]
    | _ => rfl
  rw [remaining, hasks, hunborn hbefore]
  simp

/-- The request that a registration keeps is the one that its history leaves. -/
theorem Sound.owes_run (hs : s.Sound) (hstill : s.coordinator.Still)
    (hprompt : s.coordinator.Prompt) (h : s.coordinator.Owes poll d?)
    (hunborn : s.coordinator.nextId ≤ poll → d? = none) {events : List Event}
    (hall : ∀ e ∈ events, Unforced e) :
    (s.run events).coordinator.Owes poll (s.standing poll d? events) := by
  induction events generalizing s d? with
  | nil => exact h
  | cons e rest ih =>
    have he := hall e (by simp)
    exact ih (hs.step e) (hs.still_unforced hstill he) (hs.prompt_step e hprompt)
      (hs.owes_step hstill hprompt h hunborn he) (hs.unborn_step hunborn)
      fun e he => hall e (by simp [he])

/-! ### The end of the run -/

/--
What the end of a run makes of the registration that has waited for it: it keeps no request, and
either is paused without a timer or is scheduled, with a timer that is due after a delay.
-/
structure Resolved (s s' : System) (r : Registration) (delay : Duration) (r' : Registration) :
    Prop where
  mem : r' ∈ s'.coordinator.registry
  id : r'.id = r.id
  idle : r'.inFlight = false
  kept : r'.pendingDelay = none
  paused : r'.isPaused s'.coordinator.gates = true → r'.state = .paused ∧ s'.Untimed r'
  scheduled : r'.isPaused s'.coordinator.gates = false → r'.state = .scheduled ∧
    ∀ due, s.now.after? delay = some due → ∃ t, s'.TimedBy r' t ∧ t.deadline = due

/-- When the run ends that a registration waits for, the request that it keeps is used up. -/
theorem Sound.resolved (hs : s.Sound) (hr : r ∈ s.coordinator.registry)
    (hflight : r.inFlight = true)
    (failed : Bool) :
    ∃ r', Resolved s (s.step (.finish r.runId failed)) r
      (r.pendingDelay.getD r.options.interval) r' := by
  obtain ⟨run, hrun, hid⟩ := (hs.books.marked r hr).mp hflight
  have hw : r.awaitedRun = some run.id := Registration.awaitedRun_eq_some.mpr ⟨hflight, hid.symm⟩
  have hnone := (hs.untimed hr (hs.tidy.timer_none hr hflight)).armed
  obtain ⟨p, hp⟩ : ∃ p, p = r.afterRun run s.coordinator.clock.wall failed := ⟨_, rfl⟩
  obtain ⟨hoptions, hasked, hidle⟩ := r.afterRun_plan run s.coordinator.clock.wall failed
  have hpid := (r.afterRun_sameTimer run s.coordinator.clock.wall failed).id
  have htimer := (r.afterRun_sameTimer run s.coordinator.clock.wall failed).timer
  rw [← hp] at hoptions hasked hidle hpid htimer
  have hs' := hs.step (.finish run.id failed)
  have hafter : (s.step (.finish run.id failed)).coordinator = s.coordinator.settle p := by
    rw [hp]
    exact hs.finish_awaited hr hrun hw failed
  rw [← hid, ← hoptions, ← hasked]
  obtain ⟨hd, -⟩ | ⟨-, hpaused, e⟩ | ⟨-, hactive, e⟩ := settle_cases s.coordinator p
  · exact absurd ((hs.undisposed hr).symm.trans hd) (by simp)
  · rw [e] at hafter
    have hmem : { p with state := .paused, pendingDelay := none } ∈
        (s.step (.finish run.id failed)).coordinator.registry := by
      rw [hafter]
      exact mem_put_self (c := s.coordinator) hr hpid
    have hgates : (s.step (.finish run.id failed)).coordinator.gates = s.coordinator.gates := by
      rw [hafter]
      rfl
    refine ⟨_, hmem, hpid, hidle, rfl, fun _ => ⟨rfl, hs'.untimed hmem ?_⟩, fun hnot => ?_⟩
    · exact htimer.trans (hs.tidy.timer_none hr hflight)
    · rw [hgates] at hnot
      exact absurd (hpaused.symm.trans hnot) (by simp)
  · rw [e] at hafter
    obtain ⟨q, hq, ha, hexplicit, hkept, hstate, -, hdues⟩ :=
      renewed_schedule (c := s.coordinator) (q := { p with pendingDelay := none })
        (d := p.pendingDelay.getD p.options.interval) hidle hr hpid hnone
    have hgates : (s.step (.finish run.id failed)).coordinator.gates = s.coordinator.gates := by
      rw [hafter, schedule_gates]
    have hqid : q.id = r.id := (Registration.id_of_account ha).trans hpid
    have hqoptions : q.options = p.options :=
      Registration.eq_of_account (·.options) (fun _ => rfl) ha
    rw [← hafter] at hq hdues
    refine ⟨q, hq, hqid, (Registration.eq_of_account (·.inFlight) (fun _ => rfl) ha).trans hidle,
      hkept, fun hyes => ?_, fun _ => ⟨hstate, fun due hdue => ?_⟩⟩
    · rw [hgates, Registration.isPaused, Registration.gateClosed, hexplicit, hqoptions] at hyes
      exact absurd (hactive.symm.trans hyes) (by simp)
    · obtain ⟨t, ht, hpoll, hdeadline⟩ := hdues due hdue
      exact ⟨t, hs'.timedBy ht hq (hqid.trans hpoll.symm), hdeadline⟩

/--
**What is asked for during a run is done when it ends, once.**  Whatever has happened, as long as
nobody has forced the gates, and whichever registration waits for the end of a run, its own or
one that it inherited: the end leaves it paused without a timer if it is paused then.
Otherwise it is scheduled, with one timer, due after the delay of the last request since the run
began, the registration was made or a pause made it forget, or after its interval if there was
none.  The request is then no longer kept.
-/
theorem requests_applied (config : CoordinatorConfig) (clock : Clock) (draws : Draws)
    {events : List Event} (hall : ∀ e ∈ events, Unforced e) :
    let start := initial config clock draws
    let s := start.run events
    ∀ r ∈ s.coordinator.registry, r.inFlight = true →
      (∃ run ∈ s.runs, run.id = r.runId) ∧
      ∀ failed, ∃ r', Resolved s (s.step (.finish r.runId failed)) r
        ((start.standing r.id none events).getD r.options.interval) r' := by
  intro start s r hr hflight
  have hs : s.Sound := sound_run config clock draws events
  have hnone : ∀ r ∈ start.coordinator.registry, False := fun r hr => absurd hr List.not_mem_nil
  have howes : s.coordinator.Owes r.id (start.standing r.id none events) :=
    (sound_initial config clock draws).owes_run (fun r hr => (hnone r hr).elim)
      (fun r hr => (hnone r hr).elim) (fun r hr => (hnone r hr).elim) (fun _ => rfl) hall
  refine ⟨(hs.books.marked r hr).mp hflight, fun failed => ?_⟩
  rw [← howes r hr rfl hflight]
  exact hs.resolved hr hflight failed

/-- A poll is replaced during its run, and both polls are resumed after an outage. -/
def handover : List Event :=
  [.register { key := "feed", interval := .ofSeconds 60 },
    .register { key := "inbox", interval := .ofSeconds 5 }, .fire 0, .elapse (.ofSeconds 1),
    .register { key := "feed", interval := .ofSeconds 30 }, .pauseHealthAware,
    .resumeHealthAware true, .refresh]

theorem requests_applied_handover :
    let start := initial { jitterMax := .ofMillis 20 } default ⟨[7, 13], []⟩
    let s := start.run handover
    (∀ e ∈ handover, Unforced e) ∧
    ∃ r ∈ s.coordinator.registry, r.inFlight = true ∧ r.id = 2 ∧ r.runId = 0 ∧
      start.standing 2 none handover = some (.ofMillis 13) ∧
      ∃ r', Resolved s (s.step (.finish r.runId true)) r (.ofMillis 13) r' := by
  have hall : ∀ e ∈ handover, Unforced e := by decide +kernel
  obtain ⟨r, hr, hflight, hid, hrun⟩ :
      ∃ r ∈ ((initial { jitterMax := .ofMillis 20 } default ⟨[7, 13], []⟩).run
        handover).coordinator.registry, r.inFlight = true ∧ r.id = 2 ∧ r.runId = 0 := by
    decide +kernel
  have hstanding : (initial { jitterMax := .ofMillis 20 } default ⟨[7, 13], []⟩).standing 2 none
      handover = some (.ofMillis 13) := by decide +kernel
  obtain ⟨-, happlied⟩ :=
    requests_applied { jitterMax := .ofMillis 20 } default ⟨[7, 13], []⟩ hall r hr hflight
  obtain ⟨r', hr'⟩ := happlied true
  rw [hid, hstanding] at hr'
  exact ⟨hall, r, hr, hflight, hid, hrun, hstanding, r', hr'⟩

end System

end FeedPoller
