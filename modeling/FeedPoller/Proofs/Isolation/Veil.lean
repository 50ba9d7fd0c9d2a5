/-
Coordinators that differ only in how the runs of one key go.

How the runs of a key go decides when they end and how, and so what its registration counts,
when its timers are armed, and whether a run of it is going on at some moment.  All of that is
drawn over with a veil here, and the numbers of timers with it, since they count the veiled
key's timers too.  What the veil leaves of the key's registration is who it is, what was asked
of it and whether its owner paused it.

Two coordinators are `Alike` if nothing can be told between them through the veil.  A change of
the veiled key's plans is none at all (`Alike.schedule_own` and its like), and the same change
made on both sides leaves them alike.  The veil is thick enough because the coordinator asks
nothing of a registration that is drawn over when it decides about another one, and thin
enough because whether the veiled registration is paused can still be seen.
-/
import FeedPoller.Proofs.Poll.Stillness
import FeedPoller.Proofs.Simulation.Agenda

namespace FeedPoller

open Simulation

namespace Registration

/-- Who a registration is, what was asked of it, and whether its owner paused it. -/
def face (r : Registration) : Registration where
  id := r.id
  options := r.options
  order := r.order
  explicitlyPaused := r.explicitlyPaused

/-- What is seen of a registration through the veil over a key. -/
def veil (hidden : String) (r : Registration) : Registration :=
  if r.key = hidden then r.face else { r with timer := none }

variable {hidden : String} {r r' q : Registration} {g : Gates}

theorem veil_own (h : r.key = hidden) : r.veil hidden = r.face := if_pos h

theorem veil_other (h : r.key ≠ hidden) : r.veil hidden = { r with timer := none } := if_neg h

/-- What can be seen of every registration. -/
theorem seen_veil {α : Type} (f : Registration → α) (hface : ∀ q : Registration, f q.face = f q)
    (htimer : ∀ q : Registration, f { q with timer := none } = f q) :
    f (r.veil hidden) = f r := by
  unfold veil
  split
  · exact hface r
  · exact htimer r

@[simp] theorem veil_id : (r.veil hidden).id = r.id :=
  seen_veil (·.id) (fun _ => rfl) fun _ => rfl

@[simp] theorem veil_key : (r.veil hidden).key = r.key :=
  seen_veil (·.key) (fun _ => rfl) fun _ => rfl

@[simp] theorem veil_options : (r.veil hidden).options = r.options :=
  seen_veil (·.options) (fun _ => rfl) fun _ => rfl

@[simp] theorem veil_gateClosed : (r.veil hidden).gateClosed g = r.gateClosed g :=
  seen_veil (·.gateClosed g) (fun _ => rfl) fun _ => rfl

@[simp] theorem veil_explicitlyPaused :
    (r.veil hidden).explicitlyPaused = r.explicitlyPaused :=
  seen_veil (·.explicitlyPaused) (fun _ => rfl) fun _ => rfl

@[simp] theorem veil_isPaused : (r.veil hidden).isPaused g = r.isPaused g :=
  seen_veil (·.isPaused g) (fun _ => rfl) fun _ => rfl

/-- What can be seen of every registration is the same for two that look the same. -/
theorem eq_of_veil {α : Type} (f : Registration → α)
    (hf : ∀ q : Registration, f (q.veil hidden) = f q) (h : r.veil hidden = r'.veil hidden) :
    f r = f r' := by
  rw [← hf r, h, hf r']

theorem id_of_veil (h : r.veil hidden = r'.veil hidden) : r.id = r'.id :=
  eq_of_veil (·.id) (fun _ => veil_id) h

theorem key_of_veil (h : r.veil hidden = r'.veil hidden) : r.key = r'.key :=
  eq_of_veil (·.key) (fun _ => veil_key) h

theorem isPaused_of_veil (h : r.veil hidden = r'.veil hidden) : r.isPaused g = r'.isPaused g :=
  eq_of_veil (·.isPaused g) (fun _ => veil_isPaused) h

/-- Of another key's registration only the number of its timer is drawn over. -/
theorem eq_of_veil_other {α : Type} (f : Registration → α) (hne : r.key ≠ hidden)
    (h : r.veil hidden = r'.veil hidden)
    (hf : ∀ q : Registration, f { q with timer := none } = f q) :
    f r = f r' := by
  have hne' : r'.key ≠ hidden := key_of_veil h ▸ hne
  rw [veil_other hne, veil_other hne'] at h
  rw [← hf r, h, hf r']

/-- Registrations that look the same look the same after the same change. -/
theorem veil_congr (u : Registration → Registration) (hkey : ∀ q, (u q).key = q.key)
    (hface : ∀ q, (u q).face = (u q.face).face)
    (htimer : ∀ q, { u q with timer := none } = { u { q with timer := none } with timer := none })
    (h : r.veil hidden = r'.veil hidden) : (u r).veil hidden = (u r').veil hidden := by
  have hk := key_of_veil h
  by_cases hown : r.key = hidden
  · have hown' : r'.key = hidden := hk ▸ hown
    rw [veil_own hown, veil_own hown'] at h
    rw [veil_own ((hkey r).trans hown), veil_own ((hkey r').trans hown'), hface r, h, ← hface r']
  · have hown' : r'.key ≠ hidden := hk ▸ hown
    rw [veil_other hown, veil_other hown'] at h
    rw [veil_other (hkey r ▸ hown), veil_other (hkey r' ▸ hown'), htimer r, h, ← htimer r']

/-- The number of a timer cannot be seen. -/
theorem veil_timer {n : Option Nat} : { r with timer := n }.veil hidden = r.veil hidden := by
  by_cases hown : r.key = hidden
  · rw [veil_own hown, veil_own (r := { r with timer := n }) hown]
    rfl
  · rw [veil_other hown, veil_other (r := { r with timer := n }) hown]

/-- A change of the veiled registration's plans cannot be seen. -/
theorem veil_eq_own (hown : r.key = hidden) (h : q.face = r.face) :
    q.veil hidden = r.veil hidden := by
  have hkey : q.key = r.key := congrArg (·.key) h
  rw [veil_own hown, veil_own (hkey.trans hown), h]

end Registration

/-! ### What waits, through the veil -/

namespace Simulation

/-- Whether a task is the end of a run of a key. -/
def Task.isOf (key : String) : Task → Bool
  | .endRun run _ _ _ => run.key == key
  | _ => false

/-- Whether an entry is about a key, whose registration has this id if it has one. -/
def Entry.isOf (key : String) (id : Option Nat) : Entry → Bool
  | .timer t => id == some t.poll
  | .wait k => k.task.isOf key

/-- An entry without the number that tells when it began to wait. -/
def Entry.plain : Entry → Entry
  | .timer t => .timer { t with number := 0 }
  | .wait k => .wait { k with after := 0 }

/-- An agenda as it is seen through the veil over a key. -/
def besides (key : String) (id : Option Nat) (l : List Entry) : List Entry :=
  (l.filter fun e => !e.isOf key id).map Entry.plain

variable {key : String} {id : Option Nat} {l l' : List Entry}

theorem besides_append : besides key id (l ++ l') = besides key id l ++ besides key id l' := by
  simp [besides]

theorem besides_number {n m p e : Nat} {d : Instant} :
    besides key id [.timer ⟨n, p, e, d⟩] = besides key id [.timer ⟨m, p, e, d⟩] := by
  unfold besides
  cases hid : id == some p <;> simp [Entry.isOf, Entry.plain, hid]

/-- Other timers than those of the key are stopped in the same way on both sides of the veil. -/
theorem besides_filter {p : Timer → Bool} (hp : ∀ t : Timer, p { t with number := 0 } = p t)
    {id' : Option Nat}
    (hid : ∀ e ∈ l, Entry.passes p e = true → e.isOf key id' = e.isOf key id) :
    besides key id' (l.filter (Entry.passes p)) = (besides key id l).filter (Entry.passes p) := by
  have hplain : ∀ e : Entry, Entry.passes p e.plain = Entry.passes p e := by
    intro e
    cases e with
    | timer t => exact hp t
    | wait k => rfl
  have hcomp : (Entry.passes p) ∘ Entry.plain = Entry.passes p := funext hplain
  rw [besides, besides, List.filter_filter, List.filter_map, hcomp, List.filter_filter]
  congr 1
  refine List.filter_congr fun e he => ?_
  cases hpe : Entry.passes p e with
  | false => simp
  | true => rw [hid e he hpe]; simp

end Simulation

namespace Coordinator

variable {hidden : String} {c c' c'' : Coordinator} {waits waits' waits'' : List Wait}
  {r r' q q' p p' : Registration} {d : Duration}

/-- The coordinator through the veil over a key; what waits is seen elsewhere. -/
def veiled (hidden : String) (c : Coordinator) : Coordinator :=
  { c with registry := c.registry.map (·.veil hidden), timers := [], armed := 0 }

/-- The id of the registration of a key. -/
def idOf? (c : Coordinator) (key : String) : Option Nat := (c.find? key).map (·.id)

/-- What waits with the coordinator, through the veil over a key. -/
def theirs (hidden : String) (c : Coordinator) (waits : List Wait) : List Entry :=
  besides hidden (c.idOf? hidden) (agenda c.timers waits)

/-- All that waits with the coordinator stands in its order. -/
abbrev LaidWith (c : Coordinator) (waits : List Wait) : Prop := Laid c.timers waits c.armed

/-- Nothing can be told between two coordinators, and what waits with them, through the veil. -/
structure Alike (hidden : String) (waits waits' : List Wait) (c c' : Coordinator) : Prop where
  tidy : c.Tidy
  tidy' : c'.Tidy
  laid : c.LaidWith waits
  laid' : c'.LaidWith waits'
  seen : c.veiled hidden = c'.veiled hidden
  theirs : c.theirs hidden waits = c'.theirs hidden waits'

theorem Alike.symm (h : Alike hidden waits waits' c c') : Alike hidden waits' waits c' c :=
  ⟨h.tidy', h.tidy, h.laid', h.laid, h.seen.symm, h.theirs.symm⟩

theorem Alike.trans (h : Alike hidden waits waits' c c') (h' : Alike hidden waits' waits'' c' c'') :
    Alike hidden waits waits'' c c'' :=
  ⟨h.tidy, h'.tidy', h.laid, h'.laid', h.seen.trans h'.seen, h.theirs.trans h'.theirs⟩

theorem Alike.refl (ht : c.Tidy) (hl : c.LaidWith waits) : Alike hidden waits waits c c :=
  ⟨ht, ht, hl, hl, rfl, rfl⟩

/-! ### What can be seen -/

theorem Alike.gates (h : Alike hidden waits waits' c c') : c.gates = c'.gates :=
  (congrArg Coordinator.gates h.seen :)

theorem Alike.clock (h : Alike hidden waits waits' c c') : c.clock = c'.clock :=
  (congrArg Coordinator.clock h.seen :)

theorem Alike.config (h : Alike hidden waits waits' c c') : c.config = c'.config :=
  (congrArg Coordinator.config h.seen :)

theorem Alike.nextId (h : Alike hidden waits waits' c c') : c.nextId = c'.nextId :=
  (congrArg Coordinator.nextId h.seen :)

theorem Alike.disposed (h : Alike hidden waits waits' c c') : c.disposed = c'.disposed :=
  (congrArg Coordinator.disposed h.seen :)

theorem Alike.listening (h : Alike hidden waits waits' c c') : c.listening = c'.listening :=
  (congrArg Coordinator.listening h.seen :)

theorem Alike.registry (h : Alike hidden waits waits' c c') :
    c.registry.map (·.veil hidden) = c'.registry.map (·.veil hidden) :=
  congrArg Coordinator.registry h.seen

/-- Every registration has one that looks the same on the other side. -/
theorem Alike.counterpart (h : Alike hidden waits waits' c c') (hr : r ∈ c.registry) :
    ∃ r' ∈ c'.registry, r.veil hidden = r'.veil hidden := by
  have hmem : r.veil hidden ∈ c.registry.map (·.veil hidden) := List.mem_map_of_mem hr
  rw [h.registry] at hmem
  obtain ⟨r', hr', e⟩ := List.mem_map.mp hmem
  exact ⟨r', hr', e.symm⟩

/-- Looking for something that can be seen finds the same on both sides. -/
theorem Alike.find (h : Alike hidden waits waits' c c') {p : Registration → Bool}
    (hp : ∀ q : Registration, p (q.veil hidden) = p q) :
    (c.registry.find? p = none ∧ c'.registry.find? p = none) ∨
      ∃ r r', c.registry.find? p = some r ∧ c'.registry.find? p = some r' ∧
        r.veil hidden = r'.veil hidden := by
  have hcomp : p ∘ (·.veil hidden) = p := funext hp
  have hfind := congrArg (List.find? p) h.registry
  rw [List.find?_map, List.find?_map, hcomp] at hfind
  cases hc : c.registry.find? p with
  | none =>
      rw [hc, Option.map_none, eq_comm, Option.map_eq_none_iff] at hfind
      exact Or.inl ⟨rfl, hfind⟩
  | some r =>
      rw [hc, Option.map_some, eq_comm, Option.map_eq_some_iff] at hfind
      obtain ⟨r', hr', e⟩ := hfind
      exact Or.inr ⟨r, r', rfl, hr', e.symm⟩

theorem Alike.find? (h : Alike hidden waits waits' c c') (key : String) :
    (c.find? key = none ∧ c'.find? key = none) ∨
      ∃ r r', c.find? key = some r ∧ c'.find? key = some r' ∧ r.veil hidden = r'.veil hidden :=
  h.find fun q => by rw [Registration.veil_key]

theorem Alike.findId? (h : Alike hidden waits waits' c c') (id : Nat) :
    (c.findId? id = none ∧ c'.findId? id = none) ∨
      ∃ r r', c.findId? id = some r ∧ c'.findId? id = some r' ∧ r.veil hidden = r'.veil hidden :=
  h.find fun q => by rw [Registration.veil_id]

/-! ### One registration is put back -/

theorem veiled_put (c : Coordinator) (q : Registration) :
    (c.put q).veiled hidden = (c.veiled hidden).put (q.veil hidden) := by
  simp only [veiled, put, List.map_map]
  congr 1
  refine List.map_congr_left fun r _ => ?_
  by_cases hid : r.id = q.id <;> simp [hid]

/-- A registration that looks as it did is put back without anybody seeing it. -/
theorem veiled_put_self (hu : c.UniqueIds) (hr : r ∈ c.registry)
    (hv : q.veil hidden = r.veil hidden) : (c.put q).veiled hidden = c.veiled hidden := by
  have hmap := map_put (·.veil hidden) hu hr (Registration.id_of_veil hv) hv
  simp only [veiled, hmap]
  rfl

/-- The ids of keys depend on nothing else of the registry. -/
theorem idOf?_congr {key : String}
    (h : c'.registry.map (fun r => (r.key, r.id)) = c.registry.map fun r => (r.key, r.id)) :
    c'.idOf? key = c.idOf? key := by
  have hid : ∀ c : Coordinator, c.idOf? key
      = ((c.registry.map fun r => (r.key, r.id)).find? fun k => k.1 == key).map (·.2) := by
    intro c
    rw [List.find?_map, Option.map_map]
    rfl
  rw [hid c', hid c, h]

theorem idOf?_put (hu : c.UniqueIds) (hr : r ∈ c.registry) (hid : q.id = r.id)
    (hkey : q.key = r.key) {key : String} : (c.put q).idOf? key = c.idOf? key :=
  idOf?_congr (map_put (fun r => (r.key, r.id)) hu hr hid (by simp only [hid, hkey]))

theorem Alike.idOf? (h : Alike hidden waits waits' c c') {key : String} :
    c.idOf? key = c'.idOf? key := by
  refine idOf?_congr ?_
  have hseen : ∀ c : Coordinator, c.registry.map (fun r => (r.key, r.id))
      = (c.registry.map (·.veil hidden)).map fun r => (r.key, r.id) := by
    intro c
    simp
  rw [hseen c, hseen c', h.registry]

/-- The registration with the id of a key is the one of that key. -/
theorem idOf?_eq_some (ho : c.Orderly) (hr : r ∈ c.registry) {key : String} :
    c.idOf? key = some r.id ↔ r.key = key := by
  constructor
  · intro h
    obtain ⟨q, hq, hid⟩ := Option.map_eq_some_iff.mp h
    obtain ⟨hmem, hkey⟩ := find?_mem hq
    rw [← ho.uniqueIds.eq hmem hr hid, hkey]
  · rintro rfl
    rw [idOf?, find?_of_mem ho hr]
    rfl

theorem theirs_put (hu : c.UniqueIds) (hr : r ∈ c.registry) (hid : q.id = r.id)
    (hkey : q.key = r.key) : (c.put q).theirs hidden waits = c.theirs hidden waits := by
  rw [theirs, theirs, idOf?_put hu hr hid hkey]
  rfl

/-! ### Timers are stopped and armed -/

/-- To stop a registration's timer is to stop every timer that was armed for it. -/
theorem disarm_timers (h : c.Tidy) (hr : r ∈ c.registry) (hs : r.SameTimer q) :
    (c.disarm q).timers = c.timers.filter fun t => t.poll != r.id := by
  refine List.filter_congr fun t ht => ?_
  rw [hs.timer, Bool.eq_iff_iff, bne_iff_ne, bne_iff_ne]
  refine not_congr ⟨fun hn => h.poll_eq ht hr hn, fun hp => ?_⟩
  exact (h.remembered ht hr hp.symm).1

theorem laid_disarm (hl : c.LaidWith waits) : (c.disarm q).LaidWith waits := (Lays.filter hl _).laid

theorem laid_arm (hl : c.LaidWith waits) (deadline : Instant) :
    (c.arm q deadline).LaidWith waits :=
  (Lays.arm hl rfl).laid

theorem laid_schedule (hl : c.LaidWith waits) : (c.schedule q d).LaidWith waits := by
  obtain ⟨-, e⟩ | ⟨-, deadline, -, e⟩ | ⟨-, -, e⟩ := schedule_cases c q d <;> rw [e]
  · exact hl
  · exact laid_arm (laid_disarm hl) deadline
  · exact laid_disarm (q := q) hl

theorem theirs_disarm (h : c.Tidy) (hl : c.LaidWith waits) (hr : r ∈ c.registry)
    (hs : r.SameTimer q) :
    (c.disarm q).theirs hidden waits
      = (c.theirs hidden waits).filter (Entry.passes fun t => t.poll != r.id) := by
  rw [theirs, disarm_timers h hr hs, agenda_filter hl]
  exact besides_filter (fun _ => rfl) fun _ _ _ => rfl

/-- No timer of the veiled key can be seen. -/
theorem theirs_spared (hid : c.idOf? hidden = some r.id) :
    (c.theirs hidden waits).filter (Entry.passes fun t => t.poll != r.id)
      = c.theirs hidden waits := by
  refine List.filter_eq_self.mpr fun e he => ?_
  obtain ⟨e, he', rfl⟩ := List.mem_map.mp he
  have hnot := (List.mem_filter.mp he').2
  cases e with
  | timer t =>
      have hne : r.id ≠ t.poll := by simpa [Entry.isOf, hid] using hnot
      simpa [Entry.plain, Entry.passes] using hne.symm
  | wait k => rfl

theorem theirs_arm (hu : c.UniqueIds) (hl : c.LaidWith waits) (hr : r ∈ c.registry)
    (hid : q.id = r.id) (hkey : q.key = r.key) (deadline : Instant) :
    (c.arm q deadline).theirs hidden waits = c.theirs hidden waits ++
      besides hidden (c.idOf? hidden) [.timer ⟨c.armed, q.id, q.epoch, deadline⟩] := by
  have hidOf : (c.arm q deadline).idOf? hidden = c.idOf? hidden :=
    idOf?_put (q := { q with timer := some c.armed }) hu hr hid hkey
  have hagenda : agenda (c.arm q deadline).timers waits
      = agenda c.timers waits ++ [.timer ⟨c.armed, q.id, q.epoch, deadline⟩] := agenda_arm hl rfl
  rw [theirs, hidOf, hagenda, besides_append]
  rfl

/-! ### Changes that cannot be seen -/

theorem Alike.put_own (h : Alike hidden waits waits' c c') (hr : r ∈ c.registry)
    (hv : q.veil hidden = r.veil hidden) (ht : (c.put q).Tidy) :
    Alike hidden waits waits' (c.put q) c' where
  tidy := ht
  tidy' := h.tidy'
  laid := h.laid
  laid' := h.laid'
  seen := (veiled_put_self h.tidy.uniqueIds hr hv).trans h.seen
  theirs := (theirs_put h.tidy.uniqueIds hr (Registration.id_of_veil hv)
    (Registration.key_of_veil hv)).trans h.theirs

/-- Nobody sees the timer of the veiled registration being stopped. -/
theorem theirs_replan_own (h : c.Tidy) (hl : c.LaidWith waits) (hr : r ∈ c.registry)
    (hown : r.key = hidden) (hs : r.SameTimer p) (hid : q.id = p.id) (hkey : q.key = p.key) :
    ((c.disarm p).put q).theirs hidden waits = c.theirs hidden waits := by
  rw [theirs_put (c := c.disarm p) h.uniqueIds hr (hid.trans hs.id) (hkey.trans hs.key),
    theirs_disarm h hl hr hs, theirs_spared ((idOf?_eq_some h.toOrderly hr).mpr hown)]

theorem Alike.replan_own (h : Alike hidden waits waits' c c') (hr : r ∈ c.registry)
    (hown : r.key = hidden) (hs : r.SameTimer p) (hv : q.veil hidden = r.veil hidden)
    (hnone : q.timer = none) : Alike hidden waits waits' ((c.disarm p).put q) c' := by
  have hid : q.id = p.id := (Registration.id_of_veil hv).trans hs.id.symm
  have hkey : q.key = p.key := (Registration.key_of_veil hv).trans hs.key.symm
  exact ⟨h.tidy.replan hr hs hid hkey hnone, h.tidy', laid_disarm (q := p) h.laid, h.laid',
    (veiled_put_self (c := c.disarm p) h.tidy.uniqueIds hr hv).trans h.seen,
    (theirs_replan_own h.tidy h.laid hr hown hs hid hkey).trans h.theirs⟩

/-- Nobody sees what is planned when a run of the veiled key is asked for. -/
theorem schedule_hidden (h : c.Tidy) (hl : c.LaidWith waits) (hr : r ∈ c.registry)
    (hown : r.key = hidden) (hs : r.SameTimer q) :
    (c.schedule q d).veiled hidden = (c.veiled hidden).put (q.veil hidden) ∧
      (c.schedule q d).theirs hidden waits = c.theirs hidden waits := by
  have hown' : q.key = hidden := hs.key.trans hown
  have hidOf : c.idOf? hidden = some r.id := (idOf?_eq_some h.toOrderly hr).mpr hown
  have hface : ∀ q', Registration.face q' = q.face → q'.veil hidden = q.veil hidden :=
    fun _ => Registration.veil_eq_own hown'
  obtain ⟨-, e⟩ | ⟨-, deadline, -, e⟩ | ⟨-, -, e⟩ := schedule_cases c q d <;> rw [e]
  · exact ⟨by rw [veiled_put, hface (q.parked d) rfl], theirs_put h.uniqueIds hr hs.id hs.key⟩
  · constructor
    · rw [← hface { q.scheduled with timer := some (c.disarm q).armed } rfl]
      exact veiled_put (c.disarm q) _
    · have hmine : (Entry.timer ⟨(c.disarm q).armed, q.scheduled.id, q.scheduled.epoch,
          deadline⟩).isOf hidden ((c.disarm q).idOf? hidden) = true := by
        show (c.idOf? hidden == some q.id) = true
        rw [hidOf, hs.id]
        exact beq_self_eq_true _
      rw [theirs_arm (c := c.disarm q) (q := q.scheduled) h.uniqueIds (laid_disarm hl) hr
        hs.id hs.key, theirs_disarm h hl hr hs, theirs_spared hidOf, besides,
        List.filter_cons_of_neg (by simp [hmine]), List.filter_nil, List.map_nil, List.append_nil]
  · constructor
    · rw [← hface q.scheduled rfl]
      exact veiled_put (c.disarm q) _
    · exact theirs_replan_own h hl hr hown hs rfl rfl

theorem Alike.schedule_own (h : Alike hidden waits waits' c c') (hr : r ∈ c.registry)
    (hown : r.key = hidden) (hs : r.SameTimer q) (hv : q.veil hidden = r.veil hidden)
    (hflight : q.inFlight = true → r.timer = none) :
    Alike hidden waits waits' (c.schedule q d) c' := by
  obtain ⟨hseen, htheirs⟩ := schedule_hidden (d := d) h.tidy h.laid hr hown hs
  have hsame : (c.veiled hidden).put (q.veil hidden) = c.veiled hidden := by
    rw [← veiled_put]
    exact veiled_put_self h.tidy.uniqueIds hr hv
  exact ⟨h.tidy.schedule hr hs hflight, h.tidy', laid_schedule h.laid, h.laid',
    (hseen.trans hsame).trans h.seen, htheirs.trans h.theirs⟩

/-! ### Changes on both sides -/

theorem Alike.put (h : Alike hidden waits waits' c c') (hr : r ∈ c.registry)
    (hr' : r' ∈ c'.registry) (hs : r.SameTimer q) (hs' : r'.SameTimer q')
    (hv : q.veil hidden = q'.veil hidden) (ht : (c.put q).Tidy) (ht' : (c'.put q').Tidy) :
    Alike hidden waits waits' (c.put q) (c'.put q') where
  tidy := ht
  tidy' := ht'
  laid := h.laid
  laid' := h.laid'
  seen := by rw [veiled_put, veiled_put, h.seen, hv]
  theirs := by
    rw [theirs_put h.tidy.uniqueIds hr hs.id hs.key,
      theirs_put h.tidy'.uniqueIds hr' hs'.id hs'.key, h.theirs]

theorem Alike.replan (h : Alike hidden waits waits' c c') (hr : r ∈ c.registry)
    (hr' : r' ∈ c'.registry) (hs : r.SameTimer p) (hs' : r'.SameTimer p') (hid : q.id = p.id)
    (hid' : q'.id = p'.id) (hkey : q.key = p.key) (hkey' : q'.key = p'.key)
    (hnone : q.timer = none) (hnone' : q'.timer = none) (hv : q.veil hidden = q'.veil hidden) :
    Alike hidden waits waits' ((c.disarm p).put q) ((c'.disarm p').put q') where
  tidy := h.tidy.replan hr hs hid hkey hnone
  tidy' := h.tidy'.replan hr' hs' hid' hkey' hnone'
  laid := laid_disarm (q := p) h.laid
  laid' := laid_disarm (q := p') h.laid'
  seen := by
    rw [veiled_put, veiled_put, hv]
    exact congrArg (·.put (q'.veil hidden)) h.seen
  theirs := by
    have hrr : r.id = r'.id :=
      ((hs.id.symm.trans hid.symm).trans (Registration.id_of_veil hv)).trans (hid'.trans hs'.id)
    rw [theirs_put (c := c.disarm p) h.tidy.uniqueIds hr (hid.trans hs.id) (hkey.trans hs.key),
      theirs_put (c := c'.disarm p') h.tidy'.uniqueIds hr' (hid'.trans hs'.id)
        (hkey'.trans hs'.key), theirs_disarm h.tidy h.laid hr hs,
      theirs_disarm h.tidy' h.laid' hr' hs', hrr, h.theirs]

theorem Alike.suspend (h : Alike hidden waits waits' c c') (hr : r ∈ c.registry)
    (hr' : r' ∈ c'.registry) (hs : r.SameTimer q) (hs' : r'.SameTimer q')
    (hv : q.veil hidden = q'.veil hidden) :
    Alike hidden waits waits' (c.suspend q) (c'.suspend q') :=
  h.replan hr hr' hs hs' rfl rfl rfl rfl rfl rfl
    (Registration.veil_congr (·.suspended) (fun _ => rfl) (fun _ => rfl) (fun _ => rfl) hv)

theorem Alike.arm (h : Alike hidden waits waits' c c') (hr : r ∈ c.registry)
    (hr' : r' ∈ c'.registry) (hid : q.id = r.id) (hid' : q'.id = r'.id) (hkey : q.key = r.key)
    (hkey' : q'.key = r'.key) (hv : q.veil hidden = q'.veil hidden) (he : q.epoch = q'.epoch)
    {deadline : Instant} (ht : (c.arm q deadline).Tidy) (ht' : (c'.arm q' deadline).Tidy) :
    Alike hidden waits waits' (c.arm q deadline) (c'.arm q' deadline) where
  tidy := ht
  tidy' := ht'
  laid := laid_arm h.laid deadline
  laid' := laid_arm h.laid' deadline
  seen := by
    have hput : (c.put { q with timer := some c.armed }).veiled hidden
        = (c'.put { q' with timer := some c'.armed }).veiled hidden := by
      rw [veiled_put, veiled_put, Registration.veil_timer (r := q),
        Registration.veil_timer (r := q'), h.seen, hv]
    exact hput
  theirs := by
    rw [theirs_arm h.tidy.uniqueIds h.laid hr hid hkey,
      theirs_arm h.tidy'.uniqueIds h.laid' hr' hid' hkey', h.theirs, h.idOf?, he,
      Registration.id_of_veil hv, besides_number]

/-- A request for a run is dealt with in the same way by coordinators with the same clock. -/
theorem schedule_both (hf : q.inFlight = q'.inFlight) (hc : c.clock = c'.clock) :
    (c.schedule q d = c.put (q.parked d) ∧ c'.schedule q' d = c'.put (q'.parked d)) ∨
    (q'.inFlight = false ∧ ∃ deadline, c.schedule q d = (c.disarm q).arm q.scheduled deadline ∧
      c'.schedule q' d = (c'.disarm q').arm q'.scheduled deadline) ∨
    (c.schedule q d = (c.disarm q).put q.scheduled ∧
      c'.schedule q' d = (c'.disarm q').put q'.scheduled) := by
  unfold Coordinator.schedule
  rw [hf, hc]
  cases q'.inFlight with
  | true => exact Or.inl ⟨rfl, rfl⟩
  | false =>
      cases c'.clock.now.after? d with
      | none => exact Or.inr (Or.inr ⟨rfl, rfl⟩)
      | some deadline => exact Or.inr (Or.inl ⟨rfl, deadline, rfl, rfl⟩)

/-- A run of the same registration is asked for. -/
theorem Alike.schedule (h : Alike hidden waits waits' c c') (hr : r ∈ c.registry)
    (hr' : r' ∈ c'.registry) (hs : r.SameTimer q) (hs' : r'.SameTimer q')
    (hv : q.veil hidden = q'.veil hidden) (hflight : q.inFlight = true → r.timer = none)
    (hflight' : q'.inFlight = true → r'.timer = none) :
    Alike hidden waits waits' (c.schedule q d) (c'.schedule q' d) := by
  have htidy := h.tidy.schedule (d := d) hr hs hflight
  have htidy' := h.tidy'.schedule (d := d) hr' hs' hflight'
  by_cases hown : q.key = hidden
  · have hkey' : q'.key = hidden := (Registration.key_of_veil hv).symm.trans hown
    obtain ⟨hseen, htheirs⟩ :=
      schedule_hidden (d := d) h.tidy h.laid hr (hs.key.symm.trans hown) hs
    obtain ⟨hseen', htheirs'⟩ :=
      schedule_hidden (d := d) h.tidy' h.laid' hr' (hs'.key.symm.trans hkey') hs'
    exact ⟨htidy, htidy', laid_schedule h.laid, laid_schedule h.laid',
      by rw [hseen, hseen', h.seen, hv], (htheirs.trans h.theirs).trans htheirs'.symm⟩
  · have hsame : ∀ {α : Type} (f : Registration → α),
        (∀ q : Registration, f { q with timer := none } = f q) → f q = f q' :=
      fun f hf => Registration.eq_of_veil_other f hown hv hf
    have hplan : q.scheduled.veil hidden = q'.scheduled.veil hidden :=
      Registration.veil_congr (·.scheduled) (fun _ => rfl) (fun _ => rfl) (fun _ => rfl) hv
    obtain ⟨e, e'⟩ | ⟨-, deadline, e, e'⟩ | ⟨e, e'⟩ :=
        schedule_both (d := d) (hsame (·.inFlight) fun _ => rfl) h.clock <;>
      rw [e] at htidy ⊢ <;> rw [e'] at htidy' ⊢
    · exact h.put hr hr' ⟨hs.id, hs.key, hs.timer, hs.epoch⟩ ⟨hs'.id, hs'.key, hs'.timer, hs'.epoch⟩
        (Registration.veil_congr (·.parked d) (fun _ => rfl) (fun _ => rfl) (fun _ => rfl) hv)
        htidy htidy'
    · have hreplan : Alike hidden waits waits' ((c.disarm q).put q.scheduled)
          ((c'.disarm q').put q'.scheduled) :=
        h.replan hr hr' hs hs' rfl rfl rfl rfl rfl rfl hplan
      rw [← arm_put] at htidy htidy' ⊢
      rw [← arm_put (c'.disarm q')]
      exact hreplan.arm (mem_put_self (c := c.disarm q) hr hs.id)
        (mem_put_self (c := c'.disarm q') hr' hs'.id) rfl rfl rfl rfl hplan
        (congrArg (· + 1) (hsame (·.epoch) fun _ => rfl)) htidy htidy'
    · exact h.replan hr hr' hs hs' rfl rfl rfl rfl rfl rfl hplan

end Coordinator

end FeedPoller
