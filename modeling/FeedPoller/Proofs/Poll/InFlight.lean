/-
The marks of runs going on are exact.

A registration carries a mark while a run goes on that its next run has to wait for.  The
run need not be its own: a registration that replaces another one in the middle of a run
inherits the mark together with the name of the run, and may be replaced in its turn.
`Bookkept` relates the marks to the runs that are really going on, and every operation
keeps it, whatever is removed or replaced in the middle of such a chain.

What carries the induction is that a name is inherited only when its owner leaves the
registry.  So a run is named by one registration at most, and an inherited name is never
that of a registration which is still there and could begin a run under it.
-/
import FeedPoller.Proofs.Poll.Lifecycle
import FeedPoller.Proofs.Poll.Turns

namespace FeedPoller

/-- Whoever is looked up by name is found, if names differ. -/
theorem find?_of_nodup {α : Type} (f : α → Nat) {l : List α} (h : (l.map f).Nodup) {x : α}
    (hx : x ∈ l) : l.find? (f · == f x) = some x := by
  cases hf : l.find? (f · == f x) with
  | none => exact absurd (List.find?_eq_none.mp hf x hx) (by simp)
  | some y =>
      have hname : f y = f x := by simpa using List.find?_some hf
      rw [List.inj_on_of_nodup_map h (List.mem_of_find?_eq_some hf) hx hname]

/-- Taking one element out of a list takes out every one of its name, if names differ. -/
theorem mem_eraseP_of_nodup {α : Type} (f : α → Nat) (n : Nat) :
    ∀ {l : List α}, (l.map f).Nodup → ∀ {x : α}, x ∈ l.eraseP (f · == n) ↔ x ∈ l ∧ f x ≠ n := by
  intro l
  induction l with
  | nil => intro _ x; simp
  | cons a rest ih =>
      intro h x
      obtain ⟨ha, hrest⟩ := List.nodup_cons.mp h
      by_cases hn : f a = n
      · rw [List.eraseP_cons_of_pos (by simpa using hn)]
        constructor
        · intro hx
          refine ⟨List.mem_cons_of_mem a hx, fun hxn => ha ?_⟩
          rw [hn, ← hxn]
          exact List.mem_map_of_mem hx
        · rintro ⟨hx, hne⟩
          rcases List.mem_cons.mp hx with rfl | hx
          · exact absurd hn hne
          · exact hx
      · rw [List.eraseP_cons_of_neg (by simpa using hn), List.mem_cons, ih hrest, List.mem_cons]
        constructor
        · rintro (rfl | ⟨hx, hne⟩)
          · exact ⟨Or.inl rfl, hn⟩
          · exact ⟨Or.inr hx, hne⟩
        · rintro ⟨rfl | hx, hne⟩
          · exact Or.inl rfl
          · exact Or.inr ⟨hx, hne⟩

namespace Registration

variable {r r' : Registration}

theorem runId_of_none (h : r.superseded = none) : r.runId = r.id := by simp [runId, h]

theorem runId_of_some {id : Nat} (h : r.superseded = some id) : r.runId = id := by
  simp [runId, h]

theorem awaitedRun_eq_some {id : Nat} :
    r.awaitedRun = some id ↔ r.inFlight = true ∧ r.runId = id := by
  cases hf : r.inFlight <;> simp [awaitedRun, hf]

/-- What the end of a run makes of the registration that waits for it. -/
def afterRun (r : Registration) (run : Run) (time : DateTime) (failed : Bool) : Registration :=
  if r.id = run.id then r.completed time failed else r.relieved

theorem afterRun_sameTimer (r : Registration) (run : Run) (time : DateTime) (failed : Bool) :
    r.SameTimer (r.afterRun run time failed) := by
  unfold afterRun
  split <;> exact ⟨rfl, rfl, rfl, rfl⟩

/-- The end of a run leaves what was asked for meanwhile to be done. -/
theorem afterRun_plan (r : Registration) (run : Run) (time : DateTime) (failed : Bool) :
    (r.afterRun run time failed).options = r.options ∧
      (r.afterRun run time failed).pendingDelay = r.pendingDelay ∧
      (r.afterRun run time failed).inFlight = false := by
  unfold afterRun
  split <;> exact ⟨rfl, rfl, rfl⟩

end Registration

namespace Coordinator

variable {c c' : Coordinator} {r q : Registration} {runs : List Run} {o : PollOptions}
  {awaited : Option Nat}

/-- The marks of the registrations agree with the runs that are going on. -/
structure Bookkept (c : Coordinator) (runs : List Run) : Prop where
  known : ∀ run ∈ runs, run.id < c.nextId
  distinct : (runs.map (·.id)).Nodup
  keyed : ∀ r ∈ c.registry, ∀ run ∈ runs, r.awaitedRun = some run.id → run.key = r.key
  marked : ∀ r ∈ c.registry, (r.inFlight = true ↔ ∃ run ∈ runs, run.id = r.runId)
  /-- A name is inherited together with the mark, from one that is no longer there. -/
  handed : ∀ r ∈ c.registry, ∀ id, r.superseded = some id →
    r.inFlight = true ∧ ∀ q ∈ c.registry, q.id ≠ id
  /-- Nobody begins a run before the inherited one has ended. -/
  own : ∀ r ∈ c.registry, ∀ run ∈ runs, run.id = r.id → r.superseded = none
  apart : (c.registry.map (·.runId)).Nodup

theorem Bookkept.runId_unique (h : Bookkept c runs) (hr : r ∈ c.registry) (hq : q ∈ c.registry)
    (he : r.runId = q.runId) : r = q :=
  List.inj_on_of_nodup_map h.apart hr hq he

theorem Bookkept.runId_lt (h : Bookkept c runs) (ho : c.Orderly) (hr : r ∈ c.registry) :
    r.runId < c.nextId := by
  cases hs : r.superseded with
  | none => rw [Registration.runId_of_none hs]; exact ho.fresh r hr
  | some id =>
      obtain ⟨run, hrun, hid⟩ := (h.marked r hr).mp (h.handed r hr id hs).1
      rw [← hid]
      exact h.known run hrun

/-- An idle registration has inherited nothing. -/
theorem Bookkept.superseded_none (h : Bookkept c runs) (hr : r ∈ c.registry)
    (hf : r.inFlight = false) : r.superseded = none := by
  cases hs : r.superseded with
  | none => rfl
  | some id =>
      have := (h.handed r hr id hs).1
      rw [hf] at this
      exact absurd this (by simp)

/-- While a registration is idle no run of its own goes on. -/
theorem Bookkept.alone (h : Bookkept c runs) (hr : r ∈ c.registry) (hf : r.inFlight = false) :
    ∀ run ∈ runs, run.id ≠ r.id := by
  intro run hrun hid
  have hname : r.runId = r.id := Registration.runId_of_none (h.superseded_none hr hf)
  have hmark := (h.marked r hr).mpr ⟨run, hrun, hid.trans hname.symm⟩
  rw [hf] at hmark
  exact absurd hmark (by simp)

/-- Whoever waits for a run is the one it was begun for, or has inherited it. -/
theorem Bookkept.awaits_iff (h : Bookkept c runs) {run : Run} (hr : r ∈ c.registry)
    (hrun : run ∈ runs) :
    r.awaitedRun = some run.id ↔ r.id = run.id ∨ r.superseded = some run.id := by
  rw [Registration.awaitedRun_eq_some, h.marked r hr]
  constructor
  · rintro ⟨-, hname⟩
    cases hs : r.superseded with
    | none => exact Or.inl ((Registration.runId_of_none hs).symm.trans hname)
    | some id => exact Or.inr (by rw [← hname, Registration.runId_of_some hs])
  · intro hor
    have hname : r.runId = run.id := by
      rcases hor with hid | hsup
      · exact (Registration.runId_of_none (h.own r hr run hrun hid.symm)).trans hid
      · exact Registration.runId_of_some hsup
    exact ⟨⟨run, hrun, hname.symm⟩, hname⟩

/-! ### Operations that leave the accounts alone -/

theorem Bookkept.rearranged (h : Bookkept c runs) (hc : Rearranged c c') : Bookkept c' runs where
  known := by rw [hc.nextId]; exact h.known
  distinct := h.distinct
  keyed := by
    intro r' hr' run hrun he
    obtain ⟨r, hr, ha⟩ := hc.origin hr'
    have hkey : r.key = r'.key := Registration.eq_of_account (·.key) (fun _ => rfl) ha
    have hwait : r.awaitedRun = r'.awaitedRun :=
      Registration.eq_of_account (·.awaitedRun) (fun _ => rfl) ha
    rw [← hkey]
    exact h.keyed r hr run hrun (hwait.trans he)
  marked := by
    intro r' hr'
    obtain ⟨r, hr, ha⟩ := hc.origin hr'
    have hf : r.inFlight = r'.inFlight := Registration.eq_of_account (·.inFlight) (fun _ => rfl) ha
    have hname : r.runId = r'.runId := Registration.eq_of_account (·.runId) (fun _ => rfl) ha
    rw [← hf, ← hname]
    exact h.marked r hr
  handed := by
    intro r' hr' id hs'
    obtain ⟨r, hr, ha⟩ := hc.origin hr'
    have hf : r.inFlight = r'.inFlight := Registration.eq_of_account (·.inFlight) (fun _ => rfl) ha
    have hs : r.superseded = r'.superseded :=
      Registration.eq_of_account (·.superseded) (fun _ => rfl) ha
    obtain ⟨hrf, hne⟩ := h.handed r hr id (hs.trans hs')
    refine ⟨hf ▸ hrf, fun q' hq' => ?_⟩
    obtain ⟨q, hq, hqa⟩ := hc.origin hq'
    rw [← Registration.id_of_account hqa]
    exact hne q hq
  own := by
    intro r' hr' run hrun hid
    obtain ⟨r, hr, ha⟩ := hc.origin hr'
    have hs : r.superseded = r'.superseded :=
      Registration.eq_of_account (·.superseded) (fun _ => rfl) ha
    rw [← hs]
    exact h.own r hr run hrun (hid.trans (Registration.id_of_account ha).symm)
  apart := by
    rw [hc.map_eq (·.runId) fun _ => rfl]
    exact h.apart

/-- The books are about nothing but the registry. -/
theorem Bookkept.of_registry (h : Bookkept c runs) (hr : c'.registry = c.registry)
    (hn : c'.nextId = c.nextId) : Bookkept c' runs where
  known := by rw [hn]; exact h.known
  distinct := h.distinct
  keyed := by rw [hr]; exact h.keyed
  marked := by rw [hr]; exact h.marked
  handed := by rw [hr]; exact h.handed
  own := by rw [hr]; exact h.own
  apart := by rw [hr]; exact h.apart

/-! ### Leaving and joining -/

theorem Bookkept.remove (h : Bookkept c runs) (r : Registration) : Bookkept (c.remove r) runs where
  known := h.known
  distinct := h.distinct
  keyed := fun q hq => h.keyed q (mem_remove.mp hq).1
  marked := fun q hq => h.marked q (mem_remove.mp hq).1
  handed := by
    intro q hq id hs
    obtain ⟨hf, hne⟩ := h.handed q (mem_remove.mp hq).1 id hs
    exact ⟨hf, fun p hp => hne p (mem_remove.mp hp).1⟩
  own := fun q hq => h.own q (mem_remove.mp hq).1
  apart := h.apart.sublist (List.filter_sublist.map _)

/-- What a newcomer may inherit: the name of a run of its key that nobody else goes by. -/
structure Inheritable (c : Coordinator) (runs : List Run) (key : String) (id : Nat) : Prop where
  going : ∃ run ∈ runs, run.id = id ∧ run.key = key
  free : ∀ q ∈ c.registry, q.id ≠ id ∧ q.runId ≠ id

theorem Bookkept.join (h : Bookkept c runs) (ho : c.Orderly)
    (haw : ∀ id, awaited = some id → Inheritable c runs o.key id) :
    Bookkept (c.join (c.newcomer o awaited)) runs where
  known := fun run hrun => Nat.lt_succ_of_lt (h.known run hrun)
  distinct := h.distinct
  keyed := by
    intro r hr run hrun he
    rcases List.mem_append.mp hr with hr | hr
    · exact h.keyed r hr run hrun he
    · rw [List.mem_singleton.mp hr] at he ⊢
      obtain ⟨hf, hid⟩ := Registration.awaitedRun_eq_some.mp he
      cases awaited with
      | none => exact absurd hf (by simp [newcomer])
      | some id =>
          obtain ⟨run', hrun', hid', hkey⟩ := (haw id rfl).going
          have hids : run.id = run'.id := hid.symm.trans hid'.symm
          rw [List.inj_on_of_nodup_map h.distinct hrun hrun' hids]
          exact hkey
  marked := by
    intro r hr
    rcases List.mem_append.mp hr with hr | hr
    · exact h.marked r hr
    · rw [List.mem_singleton.mp hr]
      cases awaited with
      | none =>
          refine iff_of_false (by simp [newcomer]) ?_
          rintro ⟨run, hrun, hid⟩
          exact absurd hid (Nat.ne_of_lt (h.known run hrun))
      | some id =>
          obtain ⟨run, hrun, hid, -⟩ := (haw id rfl).going
          exact iff_of_true rfl ⟨run, hrun, hid⟩
  handed := by
    intro r hr id hs
    rcases List.mem_append.mp hr with hr | hr
    · obtain ⟨hf, hne⟩ := h.handed r hr id hs
      refine ⟨hf, fun q hq => ?_⟩
      rcases List.mem_append.mp hq with hq | hq
      · exact hne q hq
      · have hlt := h.runId_lt ho hr
        rw [Registration.runId_of_some hs] at hlt
        rw [List.mem_singleton.mp hq]
        exact Nat.ne_of_gt hlt
    · rw [List.mem_singleton.mp hr] at hs ⊢
      have hs' : awaited = some id := hs
      obtain ⟨run, hrun, hid, -⟩ := (haw id hs').going
      refine ⟨by simp [newcomer, hs'], fun q hq => ?_⟩
      rcases List.mem_append.mp hq with hq | hq
      · exact ((haw id hs').free q hq).1
      · rw [List.mem_singleton.mp hq, ← hid]
        exact Nat.ne_of_gt (h.known run hrun)
  own := by
    intro r hr run hrun hid
    rcases List.mem_append.mp hr with hr | hr
    · exact h.own r hr run hrun hid
    · rw [List.mem_singleton.mp hr] at hid
      exact absurd hid (Nat.ne_of_lt (h.known run hrun))
  apart := by
    rw [join_registry, List.map_append]
    refine List.nodup_append.mpr ⟨h.apart, by simp, ?_⟩
    intro n hn m hm
    obtain ⟨q, hq, rfl⟩ := List.mem_map.mp hn
    rw [List.mem_singleton.mp hm]
    cases awaited with
    | none => exact Nat.ne_of_lt (h.runId_lt ho hq)
    | some id => exact ((haw id rfl).free q hq).2

/-- A registration that has made room passes on the name of its run. -/
theorem Bookkept.vacate (h : Bookkept c runs) (key : String) :
    Bookkept (c.vacate key) runs ∧
      ∀ id, c.awaitedFor key = some id → Inheritable (c.vacate key) runs key id := by
  obtain ⟨-, e, ha⟩ | ⟨r, hr, hkey, e, ha⟩ := vacate_cases c key <;> rw [e, ha]
  · exact ⟨h, by simp⟩
  · refine ⟨h.remove r, fun id hid => ?_⟩
    obtain ⟨hf, hname⟩ := Registration.awaitedRun_eq_some.mp hid
    obtain ⟨run, hrun, hrid⟩ := (h.marked r hr).mp hf
    refine ⟨⟨run, hrun, hrid.trans hname, ?_⟩, fun q hq => ⟨?_, ?_⟩⟩
    · rw [← hkey]
      exact h.keyed r hr run hrun (by rw [hid, hrid, hname])
    · obtain ⟨hq, hne⟩ := mem_remove.mp hq
      cases hs : r.superseded with
      | none => rwa [← hname, Registration.runId_of_none hs]
      | some j =>
          rw [← hname, Registration.runId_of_some hs]
          exact (h.handed r hr j hs).2 q hq
    · obtain ⟨hq, hne⟩ := mem_remove.mp hq
      intro he
      exact hne (by rw [h.runId_unique hq hr (he.trans hname.symm)])

/-! ### The beginning and the end of a run -/

theorem Bookkept.begin (h : Bookkept c runs) (ht : c.Tidy) (hr : r ∈ c.registry)
    (hf : r.inFlight = false) : Bookkept (c.put r.begun) (runs ++ [⟨r.id, r.key⟩]) := by
  have hs : r.superseded = none := h.superseded_none hr hf
  have hname : r.runId = r.id := Registration.runId_of_none hs
  have hnot : ∀ run ∈ runs, run.id ≠ r.id := h.alone hr hf
  have hother : ∀ p ∈ c.registry, p.id ≠ r.id → p.runId ≠ r.id := by
    intro p hp hne he
    exact hne (by rw [h.runId_unique hp hr (he.trans hname.symm)])
  constructor
  case known =>
    intro run hrun
    rcases List.mem_append.mp hrun with hrun | hrun
    · exact h.known run hrun
    · rw [List.mem_singleton.mp hrun]
      exact ht.fresh r hr
  case distinct =>
    rw [List.map_append]
    refine List.nodup_append.mpr ⟨h.distinct, by simp, ?_⟩
    intro n hn m hm
    obtain ⟨run, hrun, rfl⟩ := List.mem_map.mp hn
    rw [List.mem_singleton.mp hm]
    exact hnot run hrun
  case keyed =>
    intro p hp run hrun he
    have hprun := (Registration.awaitedRun_eq_some.mp he).2
    rcases mem_put.mp hp with ⟨hp, hne⟩ | ⟨rfl, -⟩ <;>
      rcases List.mem_append.mp hrun with hrun | hrun
    · exact h.keyed p hp run hrun he
    · rw [List.mem_singleton.mp hrun] at hprun
      exact absurd hprun (hother p hp hne)
    · exact absurd (hprun.symm.trans hname) (hnot run hrun)
    · rw [List.mem_singleton.mp hrun]
      rfl
  case marked =>
    intro p hp
    rcases mem_put.mp hp with ⟨hp, hne⟩ | ⟨rfl, -⟩
    · rw [h.marked p hp]
      constructor
      · rintro ⟨run, hrun, hid⟩
        exact ⟨run, List.mem_append_left _ hrun, hid⟩
      · rintro ⟨run, hrun, hid⟩
        rcases List.mem_append.mp hrun with hrun | hrun
        · exact ⟨run, hrun, hid⟩
        · rw [List.mem_singleton.mp hrun] at hid
          exact absurd hid.symm (hother p hp hne)
    · exact iff_of_true rfl ⟨⟨r.id, r.key⟩, by simp, hname.symm⟩
  case handed =>
    intro p hp id hps
    rcases mem_put.mp hp with ⟨hp, -⟩ | ⟨rfl, -⟩
    · obtain ⟨hpf, hall⟩ := h.handed p hp id hps
      refine ⟨hpf, fun q hq => ?_⟩
      rcases mem_put.mp hq with ⟨hq, -⟩ | ⟨rfl, -⟩
      · exact hall q hq
      · exact hall r hr
    · rw [show r.begun.superseded = none from hs] at hps
      exact absurd hps (by simp)
  case own =>
    intro p hp run hrun hid
    rcases mem_put.mp hp with ⟨hp, hne⟩ | ⟨rfl, -⟩
    · rcases List.mem_append.mp hrun with hrun | hrun
      · exact h.own p hp run hrun hid
      · rw [List.mem_singleton.mp hrun] at hid
        exact absurd hid.symm hne
    · exact hs
  case apart =>
    have hmap := map_put (·.runId) ht.uniqueIds hr (rfl : r.begun.id = r.id) rfl
    rw [hmap]
    exact h.apart

/-- The end of a run is noted by the registration that goes by its name. -/
theorem Bookkept.finish (h : Bookkept c runs) (ht : c.Tidy) (hr : r ∈ c.registry)
    (hid : q.id = r.id) (hkey : q.key = r.key) (hf : q.inFlight = false)
    (hs : q.superseded = none) : Bookkept (c.put q) (runs.eraseP (·.id == r.runId)) := by
  have hmem : ∀ {run : Run}, run ∈ runs.eraseP (·.id == r.runId) ↔ run ∈ runs ∧ run.id ≠ r.runId :=
    mem_eraseP_of_nodup (fun run : Run => run.id) _ h.distinct
  have hname : q.runId = r.id := (Registration.runId_of_none hs).trans hid
  have hother : ∀ p ∈ c.registry, p.id ≠ q.id → p.runId ≠ r.runId := by
    intro p hp hne he
    exact hne (by rw [h.runId_unique hp hr he, hid])
  constructor
  case known => exact fun run hrun => h.known run (hmem.mp hrun).1
  case distinct => exact h.distinct.sublist (List.eraseP_sublist.map _)
  case keyed =>
    intro p hp run hrun he
    rcases mem_put.mp hp with ⟨hp, -⟩ | ⟨rfl, -⟩
    · exact h.keyed p hp run (hmem.mp hrun).1 he
    · have hpf := (Registration.awaitedRun_eq_some.mp he).1
      rw [hf] at hpf
      exact absurd hpf (by simp)
  case marked =>
    intro p hp
    rcases mem_put.mp hp with ⟨hp, hne⟩ | ⟨rfl, -⟩
    · rw [h.marked p hp]
      constructor
      · rintro ⟨run, hrun, he⟩
        exact ⟨run, hmem.mpr ⟨hrun, he ▸ hother p hp hne⟩, he⟩
      · rintro ⟨run, hrun, he⟩
        exact ⟨run, (hmem.mp hrun).1, he⟩
    · refine iff_of_false (by simp [hf]) ?_
      rintro ⟨run, hrun, he⟩
      obtain ⟨hrun, hne⟩ := hmem.mp hrun
      rw [hname] at he
      exact hne (he.trans (Registration.runId_of_none (h.own r hr run hrun he)).symm)
  case handed =>
    intro p hp id hps
    rcases mem_put.mp hp with ⟨hp, -⟩ | ⟨rfl, -⟩
    · obtain ⟨hpf, hall⟩ := h.handed p hp id hps
      refine ⟨hpf, fun x hx => ?_⟩
      rcases mem_put.mp hx with ⟨hx, -⟩ | ⟨rfl, -⟩
      · exact hall x hx
      · rw [hid]
        exact hall r hr
    · rw [hs] at hps
      exact absurd hps (by simp)
  case own =>
    intro p hp run hrun he
    rcases mem_put.mp hp with ⟨hp, -⟩ | ⟨rfl, -⟩
    · exact h.own p hp run (hmem.mp hrun).1 he
    · exact hs
  case apart =>
    -- The name that the registration goes by from now on is its own, which nobody inherited.
    have hnew : ∀ p ∈ c.registry, p.id ≠ q.id → p.runId ≠ q.runId := by
      intro p hp hne
      cases hps : p.superseded with
      | none => rwa [Registration.runId_of_none hps, hname, ← hid]
      | some id =>
          rw [Registration.runId_of_some hps, hname]
          exact ((h.handed p hp id hps).2 r hr).symm
    simp only [put, List.map_map]
    refine List.Nodup.map_on ?_ (List.Nodup.of_map _ ht.uniqueIds)
    intro x hx y hy he
    by_cases hxq : x.id = q.id <;> by_cases hyq : y.id = q.id
    · exact ht.uniqueIds.eq hx hy (hxq.trans hyq.symm)
    · exact absurd (by simpa [hxq, hyq] using he.symm) (hnew y hy hyq)
    · exact absurd (by simpa [hxq, hyq] using he) (hnew x hx hxq)
    · exact h.runId_unique hx hy (by simpa [hxq, hyq] using he)

/-- The end of a run that goes by nobody's name. -/
theorem Bookkept.forget (h : Bookkept c runs) {id : Nat}
    (hno : ∀ r ∈ c.registry, r.runId ≠ id) : Bookkept c (runs.eraseP (·.id == id)) := by
  have hmem : ∀ {run : Run}, run ∈ runs.eraseP (·.id == id) ↔ run ∈ runs ∧ run.id ≠ id :=
    mem_eraseP_of_nodup (fun run : Run => run.id) _ h.distinct
  refine ⟨fun run hrun => h.known run (hmem.mp hrun).1,
    h.distinct.sublist (List.eraseP_sublist.map _),
    fun r hr run hrun => h.keyed r hr run (hmem.mp hrun).1, ?_, h.handed,
    fun r hr run hrun => h.own r hr run (hmem.mp hrun).1, h.apart⟩
  intro r hr
  rw [h.marked r hr]
  constructor
  · rintro ⟨run, hrun, he⟩
    exact ⟨run, hmem.mpr ⟨hrun, he ▸ hno r hr⟩, he⟩
  · rintro ⟨run, hrun, he⟩
    exact ⟨run, (hmem.mp hrun).1, he⟩

end Coordinator

end FeedPoller
