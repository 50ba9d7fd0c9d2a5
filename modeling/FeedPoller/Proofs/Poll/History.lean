/-
What holds in every history.

A history is a list of events, so what holds in every history is what holds at first and
outlasts every event.  `Sound` collects it: the coordinator is tidy, the marks of its
registrations agree with the runs that are going on, and a timer that waits for its turn is
one that was armed and has not had it.

Most events are calls of users, and a call has to keep the same three things whatever it
does; the turn of a timer, the end of a run and the end of the coordinator itself are taken
one by one.
-/
import FeedPoller.Proofs.Poll.InFlight

namespace FeedPoller

/-! ### What an operation has to keep -/

namespace Coordinator

variable {c c' : Coordinator} {runs : List Run} {id : Nat}

/-- An operation leaves things as they should be, with the same runs going on. -/
structure Keeps (c c' : Coordinator) (runs : List Run) : Prop where
  tidy : c'.Tidy
  books : Bookkept c' runs
  advances : Advances c c'

theorem Moves.keeps (h : Moves c c') (ht : c.Tidy) (hb : Bookkept c runs) : Keeps c c' runs := by
  obtain ⟨htidy, hadv, hrear⟩ := h.spec ht
  exact ⟨htidy, hb.rearranged hrear, hadv⟩

/-- With nothing registered the books are in order. -/
theorem bookkept_of_empty (hr : c.registry = []) (hk : ∀ run ∈ runs, run.id < c.nextId)
    (hd : (runs.map (·.id)).Nodup) : Bookkept c runs where
  known := hk
  distinct := hd
  keyed := by simp [hr]
  marked := by simp [hr]
  handed := by simp [hr]
  own := by simp [hr]
  apart := by simp [hr]

theorem dispose_keeps (ht : c.Tidy) (hb : Bookkept c runs) : Keeps c c.dispose runs := by
  obtain ⟨htidy, hadv⟩ := ht.dispose
  refine ⟨htidy, ?_, hadv⟩
  obtain ⟨-, e⟩ | ⟨-, -, hr, -, hn, -, -⟩ := dispose_cases ht
  · rw [e]; exact hb
  · exact bookkept_of_empty hr (by rw [hn]; exact hb.known) hb.distinct

/-! ### The end of a run -/

/-- The books before and after the end of a run. -/
theorem Bookkept.settle {r q : Registration} (hb : Bookkept c runs) (ht : c.Tidy)
    (hr : r ∈ c.registry) (hid : q.id = r.id) (hkey : q.key = r.key) (hf : q.inFlight = false)
    (hs : q.superseded = none) : Bookkept (c.settle q) (runs.eraseP (·.id == r.runId)) := by
  obtain ⟨q', timers, armed, ha, -, e⟩ := settle_shape c q
  rw [e]
  have hid' : q'.id = q.id := Registration.id_of_account ha
  have hkey' : q'.key = q.key := Registration.eq_of_account (·.key) (fun _ => rfl) ha
  have hf' : q'.inFlight = q.inFlight := Registration.eq_of_account (·.inFlight) (fun _ => rfl) ha
  have hs' : q'.superseded = q.superseded :=
    Registration.eq_of_account (·.superseded) (fun _ => rfl) ha
  exact (hb.finish ht hr (hid'.trans hid) (hkey'.trans hkey) (hf'.trans hf)
    (hs'.trans hs)).of_registry rfl rfl

theorem settle_keeps {r : Registration} {run : Run} (time : DateTime) (failed : Bool)
    (ht : c.Tidy) (hb : Bookkept c runs) (hr : r ∈ c.registry) (hrun : run ∈ runs)
    (hw : r.awaitedRun = some run.id) :
    Keeps c (c.settle (r.afterRun run time failed)) (runs.eraseP (·.id == run.id)) := by
  obtain ⟨hf, hname⟩ := Registration.awaitedRun_eq_some.mp hw
  obtain ⟨htidy, hadv⟩ := settle_spec ht hr (r.afterRun_sameTimer run time failed)
    (ht.timer_none hr hf)
  refine ⟨htidy, ?_, hadv⟩
  rw [← hname]
  refine hb.settle ht hr (r.afterRun_sameTimer run time failed).id
    (r.afterRun_sameTimer run time failed).key ?_ ?_ <;> unfold Registration.afterRun <;> split
  · rfl
  · rfl
  · next hid => exact hb.own r hr run hrun hid.symm
  · rfl

end Coordinator

namespace System

open Coordinator

variable {s : System} {t u : Timer} {r : Registration} {n : Nat}

/-- What holds in every history. -/
structure Sound (s : System) : Prop where
  tidy : s.coordinator.Tidy
  books : Bookkept s.coordinator s.runs
  woken : ∀ t ∈ s.woken, s.coordinator.Known t ∧ t.deadline ≤ s.now
  gone : s.alive = false → s.coordinator.registry = []

theorem sound_initial (config : CoordinatorConfig) (clock : Clock) (draws : Draws) :
    (initial config clock draws).Sound where
  tidy := tidy_new config clock draws
  books := bookkept_of_empty rfl (by simp [initial]) List.nodup_nil
  woken := by simp [initial]
  gone := by simp [initial]

/-- Where something is registered the coordinator is held, and has not been disposed of. -/
theorem Sound.alive (h : s.Sound) (hr : r ∈ s.coordinator.registry) : s.alive = true := by
  cases ha : s.alive with
  | true => rfl
  | false =>
      rw [h.gone ha] at hr
      exact absurd hr (by simp)

theorem Sound.undisposed (h : s.Sound) (hr : r ∈ s.coordinator.registry) :
    s.coordinator.disposed = false :=
  h.tidy.undisposed hr

/-! ### A timer's turn -/

/-- A timer that is found to have gone off has been armed, and its time has come. -/
theorem Sound.due (h : s.Sound) (ht : t ∈ s.dueTimers ++ s.woken) :
    s.coordinator.Known t ∧ t.deadline ≤ s.now := by
  rcases List.mem_append.mp ht with ht | ht
  · obtain ⟨hmem, hd⟩ := List.mem_filter.mp ht
    exact ⟨h.tidy.known hmem, by simpa using hd⟩
  · exact h.woken t ht

/--
The turn of a timer.  Either no turn is due, or the timer comes too late and is forgotten,
or it is the one that its registration remembers.
-/
theorem Sound.fire_cases (h : s.Sound) (n : Nat) :
    s.fire n = (s, none) ∨
    s.fire n = ({ s with woken := s.woken.filter fun u => u.number != n }, none) ∨
    (s.alive = true ∧ s.coordinator.disposed = false ∧
      ∃ t ∈ s.coordinator.timers, t.number = n ∧ t.deadline ≤ s.now ∧
      ∃ r ∈ s.coordinator.registry, r.id = t.poll ∧ r.timer = some t.number ∧
        ((r.isPaused s.coordinator.gates = true ∧
          s.fire n = ({ s with
            woken := s.woken.filter fun u => u.number != n
            coordinator := (s.coordinator.disarm r).put r.skipped }, none)) ∨
        (r.isPaused s.coordinator.gates = false ∧
          s.fire n = ({ s with
            woken := s.woken.filter fun u => u.number != n
            coordinator := (s.coordinator.disarm r).put r.begun
            runs := s.runs ++ [⟨r.id, r.key⟩] }, some ⟨r.id, r.key⟩)))) := by
  unfold System.fire
  cases halive : s.alive with
  | false => exact Or.inl rfl
  | true =>
      simp only [Bool.not_true, Bool.false_eq_true, if_false]
      cases hf : (s.dueTimers ++ s.woken).find? fun t => t.number == n with
      | none => exact Or.inl rfl
      | some t =>
          obtain ⟨hknown, hdue⟩ := h.due (List.mem_of_find?_eq_some hf)
          have hn : t.number = n := by simpa using List.find?_some hf
          obtain e | ⟨hd, hmem, r, hr, hid, hrt, ⟨hp, e⟩ | ⟨hp, e⟩⟩ :=
            beginRun_cases h.tidy hknown <;> simp only [e]
          · exact Or.inr (Or.inl trivial)
          · exact Or.inr (Or.inr ⟨trivial, hd, t, hmem, hn, hdue, r, hr, hid, hrt,
              Or.inl ⟨hp, rfl⟩⟩)
          · exact Or.inr (Or.inr ⟨trivial, hd, t, hmem, hn, hdue, r, hr, hid, hrt,
              Or.inr ⟨hp, rfl⟩⟩)

/-- The turn of a timer whose time has come is its coordinator's business. -/
theorem Sound.fire_armed (h : s.Sound) (ht : t ∈ s.coordinator.timers) (hdue : t.deadline ≤ s.now)
    (hr : r ∈ s.coordinator.registry) (hid : r.id = t.poll) :
    s.fire t.number = ({ s with
      woken := s.woken.filter fun u => u.number != t.number
      coordinator := (s.coordinator.disarm r).put
        (if r.isPaused s.coordinator.gates then r.skipped else r.begun)
      runs := s.runs ++ if r.isPaused s.coordinator.gates then [] else [⟨r.id, r.key⟩] },
      if r.isPaused s.coordinator.gates then none else some ⟨r.id, r.key⟩) := by
  have halive : s.alive = true := h.alive hr
  have hd : s.coordinator.disposed = false := h.undisposed hr
  have hfound : ((s.dueTimers ++ s.woken).find? fun u => u.number == t.number) = some t := by
    have hmem : t ∈ s.dueTimers ++ s.woken :=
      List.mem_append_left _ (List.mem_filter.mpr ⟨ht, by simpa using hdue⟩)
    cases hf : (s.dueTimers ++ s.woken).find? fun u => u.number == t.number with
    | none => exact absurd (List.find?_eq_none.mp hf t hmem) (by simp)
    | some u =>
        have hn : u.number = t.number := by simpa using List.find?_some hf
        rw [(h.due (List.mem_of_find?_eq_some hf)).1.same t ht hn.symm]
  obtain ⟨hrt, hre⟩ := h.tidy.remembered ht hr hid
  have hfind : (s.coordinator.strike t).findId? t.poll = some r :=
    hid ▸ findId?_of_mem h.tidy.uniqueIds hr
  have hd' : (s.coordinator.strike t).disposed = false := hd
  have hgates : (s.coordinator.strike t).gates = s.coordinator.gates := rfl
  rw [disarm_eq_strike hrt]
  simp only [System.fire, halive, hfound, beginRun, hd', hfind, hre, hgates]
  cases r.isPaused s.coordinator.gates <;> simp [Registration.begun, Registration.key]

/-- A timer whose time has come begins a run, if its registration is there and may run. -/
theorem Sound.fire_of_due (h : s.Sound) (ht : t ∈ s.coordinator.timers) (hdue : t.deadline ≤ s.now)
    (hr : r ∈ s.coordinator.registry) (hid : r.id = t.poll)
    (hp : r.isPaused s.coordinator.gates = false) :
    s.fire t.number = ({ s with
      woken := s.woken.filter fun u => u.number != t.number
      coordinator := (s.coordinator.disarm r).put r.begun
      runs := s.runs ++ [⟨r.id, r.key⟩] }, some ⟨r.id, r.key⟩) := by
  rw [h.fire_armed ht hdue hr hid, hp]
  rfl

/-- The timers that still wait after a turn are nobody's who has just had one. -/
theorem Sound.woken_turn (h : s.Sound) (hr : r ∈ s.coordinator.registry)
    (hrt : r.timer = some n) {q : Registration} (hid : q.id = r.id) (he : q.epoch = r.epoch)
    (hu : u ∈ s.woken.filter fun u => u.number != n) :
    ((s.coordinator.disarm r).put q).Known u ∧ u.deadline ≤ s.now := by
  obtain ⟨hu, hne⟩ := List.mem_filter.mp hu
  obtain ⟨hk, hd⟩ := h.woken u hu
  exact ⟨hk.turn (t := { u with number := n }) hr hrt (by simpa using hne) hid he, hd⟩

/-! ### The end of a run -/

/--
The end of a run.  Either no such run is going on, or nobody waits for it, or it is brought to
the registration that does.
-/
theorem Sound.finish_cases (h : s.Sound) (id : Nat) (failed : Bool) :
    ((∀ run ∈ s.runs, run.id ≠ id) ∧ s.finish id failed = s) ∨
    (∃ run ∈ s.runs, run.id = id ∧
      (((∀ r ∈ s.coordinator.registry, r.awaitedRun ≠ some run.id) ∧
          s.finish id failed = { s with runs := s.runs.eraseP (·.id == run.id) }) ∨
        ∃ r ∈ s.coordinator.registry, r.awaitedRun = some run.id ∧
          s.finish id failed = { s with
            runs := s.runs.eraseP (·.id == run.id)
            coordinator := s.coordinator.settle
              (r.afterRun run s.coordinator.clock.wall failed) })) := by
  unfold System.finish
  split
  · next hany =>
      obtain ⟨run, hrun, hid⟩ : ∃ run ∈ s.runs, run.id = id := by simpa using hany
      subst hid
      refine Or.inr ⟨run, hrun, rfl, ?_⟩
      cases halive : s.alive with
      | false =>
          have hnil := h.gone halive
          exact Or.inl ⟨by simp [hnil], by simp [System.call]⟩
      | true =>
          simp only [System.call, if_true]
          obtain ⟨r, hr, hid, e⟩ | ⟨hno, r, hr, hsup, e⟩ | ⟨hno, hnosup, e⟩ :=
            finishRun_cases s.coordinator run.id failed <;> rw [e]
          · refine Or.inr ⟨r, hr, (h.books.awaits_iff hr hrun).mpr (Or.inl hid), ?_⟩
            rw [Registration.afterRun, if_pos hid]
          · refine Or.inr ⟨r, hr, (h.books.awaits_iff hr hrun).mpr (Or.inr hsup), ?_⟩
            rw [Registration.afterRun, if_neg (hno r hr)]
          · refine Or.inl ⟨fun r hr hw => ?_, rfl⟩
            rcases (h.books.awaits_iff hr hrun).mp hw with hid | hsup
            · exact hno r hr hid
            · exact hnosup r hr hsup
  · next hno =>
      exact Or.inl ⟨fun run hrun hid => hno (by simpa using ⟨run, hrun, hid⟩), rfl⟩

/-! ### What an event can come to -/

/-- What an event can come to.  Nothing is all that comes of a call that has no effect. -/
inductive Outcome (s : System) : Event → System → Prop where
  | nothing {e : Event} : Outcome s e s
  | moves {e : Event} {c' : Coordinator} (hm : Moves s.coordinator c') :
      Outcome s e { s with coordinator := c' }
  | register {o : PollOptions} (halive : s.alive = true) (hf : o.fault? = none)
      (hd : s.coordinator.disposed = false) :
      Outcome s (.register o) { s with coordinator :=
        ((s.coordinator.vacate o.key).append o (s.coordinator.awaitedFor o.key)).1 }
  | cleanup {handle : PollHandle} {r : Registration} (hr : r ∈ s.coordinator.registry)
      (hid : r.id = handle.id) :
      Outcome s (.cleanup handle) { s with coordinator := s.coordinator.remove r }
  | dispose : Outcome s .dispose { s with coordinator := s.coordinator.dispose }
  | release : Outcome s .release s.release
  | elapse (d : Duration) : Outcome s (.elapse d) (s.elapse d)
  | wake {t : Timer} (ht : t ∈ s.coordinator.timers) (hdue : t.deadline ≤ s.now) :
      Outcome s (.wake t.number) { s with woken := s.woken ++ [t] }
  | late {n : Nat} :
      Outcome s (.fire n) { s with woken := s.woken.filter fun u => u.number != n }
  | skip {t : Timer} {r : Registration} (ht : t ∈ s.coordinator.timers)
      (hr : r ∈ s.coordinator.registry) (hid : r.id = t.poll) (hrt : r.timer = some t.number)
      (hp : r.isPaused s.coordinator.gates = true) :
      Outcome s (.fire t.number) { s with
        woken := s.woken.filter fun u => u.number != t.number
        coordinator := (s.coordinator.disarm r).put r.skipped }
  | begin {t : Timer} {r : Registration} (ht : t ∈ s.coordinator.timers)
      (hdue : t.deadline ≤ s.now)
      (hr : r ∈ s.coordinator.registry) (hid : r.id = t.poll) (hrt : r.timer = some t.number)
      (hp : r.isPaused s.coordinator.gates = false) :
      Outcome s (.fire t.number) { s with
        woken := s.woken.filter fun u => u.number != t.number
        coordinator := (s.coordinator.disarm r).put r.begun
        runs := s.runs ++ [⟨r.id, r.key⟩] }
  | unnoticed {run : Run} {failed : Bool} (hrun : run ∈ s.runs)
      (hno : ∀ r ∈ s.coordinator.registry, r.awaitedRun ≠ some run.id) :
      Outcome s (.finish run.id failed) { s with runs := s.runs.eraseP (·.id == run.id) }
  | settle {run : Run} {failed : Bool} {r : Registration} (hrun : run ∈ s.runs)
      (hr : r ∈ s.coordinator.registry) (hw : r.awaitedRun = some run.id) :
      Outcome s (.finish run.id failed) { s with
        runs := s.runs.eraseP (·.id == run.id)
        coordinator := s.coordinator.settle (r.afterRun run s.coordinator.clock.wall failed) }

theorem outcome_call {e : Event} {f : Coordinator → Coordinator}
    (h : s.alive = true → Outcome s e { s with coordinator := f s.coordinator }) :
    Outcome s e (s.call f) := by
  unfold System.call
  split
  · next halive => exact h halive
  · exact .nothing

/-- Every event comes to one of these. -/
theorem Sound.outcome (h : s.Sound) (e : Event) : Outcome s e (s.step e) := by
  have hmoves {f : Coordinator → Coordinator} (hf : ∀ c, c.Tidy → Moves c (f c)) :
      Outcome s e (s.call f) := outcome_call fun _ => .moves (hf _ h.tidy)
  cases e with
  | register o =>
      show Outcome s (.register o) (s.call fun c => (c.register o).1)
      refine outcome_call fun halive => ?_
      obtain ⟨-, e⟩ | ⟨hf, hd, e⟩ := register_cases s.coordinator o <;> rw [e]
      · exact .nothing
      · exact .register halive hf hd
  | cleanup handle =>
      show Outcome s (.cleanup handle) (s.call (·.cleanup handle))
      refine outcome_call fun _ => ?_
      obtain ⟨-, e⟩ | ⟨r, hr, hid, e⟩ := cleanup_cases s.coordinator handle <;> rw [e]
      · exact .nothing
      · exact .cleanup hr hid
  | pause key => exact hmoves fun c _ => pause_moves c key
  | resume key jitter => exact hmoves fun c _ => resume_moves c key jitter
  | pauseHealthAware => exact hmoves fun _ => pauseHealthAware_moves
  | resumeHealthAware jitter => exact hmoves fun _ ht => resumeHealthAware_moves ht jitter
  | pauseAuthenticated => exact hmoves fun _ => pauseAuthenticated_moves
  | resumeAuthenticated => exact hmoves fun _ => resumeAuthenticated_moves
  | refresh => exact hmoves fun _ => refresh_moves
  | listen => exact hmoves fun c _ => listen_moves c
  | forceGates g => exact hmoves fun _ _ => Moves.single (.gates g)
  | dispose => exact outcome_call fun _ => .dispose
  | release => exact .release
  | elapse d => exact .elapse d
  | wake n =>
      show Outcome s (.wake n) (s.wake n)
      unfold System.wake
      split
      · exact .nothing
      · next t hf =>
          obtain ⟨hmem, hdue⟩ := List.mem_filter.mp (List.mem_of_find?_eq_some hf)
          have hn : t.number = n := by simpa using List.find?_some hf
          exact hn ▸ .wake hmem (by simpa using hdue)
  | fire n =>
      show Outcome s (.fire n) (s.fire n).1
      obtain e | e | ⟨-, -, t, ht, rfl, hdue, r, hr, hid, hrt, ⟨hp, e⟩ | ⟨hp, e⟩⟩ :=
        h.fire_cases n <;> rw [e]
      · exact .nothing
      · exact .late
      · exact .skip ht hr hid hrt hp
      · exact .begin ht hdue hr hid hrt hp
  | finish id failed =>
      show Outcome s (.finish id failed) (s.finish id failed)
      obtain ⟨-, e⟩ | ⟨run, hrun, rfl, ⟨hno, e⟩ | ⟨r, hr, hw, e⟩⟩ := h.finish_cases id failed <;>
        rw [e]
      · exact .nothing
      · exact .unnoticed hrun hno
      · exact .settle hrun hr hw

/--
Where the registrations come from that are there after an event: from before it, with or without
the beginning or the end of a run, or from a call that registered them.
-/
theorem Outcome.origin {e : Event} {s' : System} (ho : Outcome s e s') (h : s.Sound)
    {r' : Registration} (hr' : r' ∈ s'.coordinator.registry) :
    (∃ r ∈ s.coordinator.registry, r.account = r'.account ∨ r.begun.account = r'.account) ∨
    (∃ r ∈ s.coordinator.registry, ∃ run failed,
      (r.afterRun run s.coordinator.clock.wall failed).account = r'.account) ∨
    ∃ o awaited, o.fault? = none ∧
      ((s.coordinator.vacate o.key).newcomer o awaited).account = r'.account := by
  cases ho with
  | nothing | elapse | wake | late | unnoticed => exact Or.inl ⟨r', hr', Or.inl rfl⟩
  | moves hm =>
      obtain ⟨r, hr, ha⟩ := (hm.spec h.tidy).2.2.origin hr'
      exact Or.inl ⟨r, hr, Or.inl ha⟩
  | register _ hf hd =>
      obtain ⟨r, hr, ha⟩ := (register_spec h.tidy hd).2.2.origin hr'
      rcases List.mem_append.mp hr with hr | hr
      · exact Or.inl ⟨r, (mem_vacate h.tidy hr).1, Or.inl ha⟩
      · exact Or.inr (Or.inr ⟨_, _, hf, List.mem_singleton.mp hr ▸ ha⟩)
  | cleanup => exact Or.inl ⟨r', (mem_remove.mp hr').1, Or.inl rfl⟩
  | dispose =>
      obtain ⟨-, e⟩ | ⟨-, -, hnil, -⟩ := dispose_cases h.tidy
      · exact Or.inl ⟨r', e ▸ hr', Or.inl rfl⟩
      · exact absurd (hnil ▸ hr') (by simp)
  | release => exact absurd hr' List.not_mem_nil
  | @skip t r _ hr =>
      rcases mem_put.mp hr' with ⟨hr', -⟩ | ⟨rfl, -⟩
      · exact Or.inl ⟨r', hr', Or.inl rfl⟩
      · exact Or.inl ⟨r, hr, Or.inl rfl⟩
  | @begin t r _ _ hr =>
      rcases mem_put.mp hr' with ⟨hr', -⟩ | ⟨rfl, -⟩
      · exact Or.inl ⟨r', hr', Or.inl rfl⟩
      · exact Or.inl ⟨r, hr, Or.inr rfl⟩
  | @settle run failed r _ hr =>
      obtain ⟨q, _, _, ha, -, e⟩ :=
        settle_shape s.coordinator (r.afterRun run s.coordinator.clock.wall failed)
      dsimp only at hr'
      rw [e] at hr'
      rcases mem_put.mp hr' with ⟨hr', -⟩ | ⟨rfl, -⟩
      · exact Or.inl ⟨r', hr', Or.inl rfl⟩
      · exact Or.inr (Or.inl ⟨r, hr, run, failed, ha.symm⟩)

/-- The clocks move only when time passes. -/
theorem Outcome.clock_cases {e : Event} {s' : System} (ho : Outcome s e s') (h : s.Sound) :
    (∃ d, e = .elapse d ∧ s'.coordinator.clock = s.coordinator.clock.advance d) ∨
      s'.coordinator.clock = s.coordinator.clock := by
  cases ho with
  | moves hm => exact Or.inr (hm.spec h.tidy).2.1.clock
  | register _ _ hd => exact Or.inr (register_spec h.tidy hd).2.1.clock
  | dispose => exact Or.inr h.tidy.dispose.2.clock
  | elapse d => exact Or.inl ⟨d, rfl, rfl⟩
  | settle hrun hr hw =>
      exact Or.inr (settle_keeps _ _ h.tidy h.books hr hrun hw).advances.clock
  | _ => exact Or.inr rfl

/-- Ids are never given out again. -/
theorem Outcome.nextId_le {e : Event} {s' : System} (ho : Outcome s e s') (h : s.Sound) :
    s.coordinator.nextId ≤ s'.coordinator.nextId := by
  cases ho with
  | moves hm => exact (hm.spec h.tidy).2.1.nextId
  | register _ _ hd => exact (register_spec h.tidy hd).2.1.nextId
  | dispose => exact h.tidy.dispose.2.nextId
  | settle hrun hr hw => exact (settle_keeps _ _ h.tidy h.books hr hrun hw).advances.nextId
  | _ => exact Nat.le_refl _

/-! ### Every event and every history -/

/-- What an operation keeps is enough for the system around it. -/
theorem Sound.keeps (h : s.Sound) {c' : Coordinator} {runs : List Run}
    (hk : Keeps s.coordinator c' runs)
    (hgone : s.alive = false → c'.registry = []) :
    Sound { s with coordinator := c', runs := runs } where
  tidy := hk.tidy
  books := hk.books
  woken := by
    intro t ht
    obtain ⟨hknown, hd⟩ := h.woken t ht
    refine ⟨hknown.advances hk.advances, ?_⟩
    show t.deadline ≤ c'.clock.now
    rw [hk.advances.clock]
    exact hd
  gone := hgone

/-- Whatever an event comes to, the system stays sound. -/
theorem Outcome.sound {e : Event} {s' : System} (ho : Outcome s e s') (h : s.Sound) :
    s'.Sound := by
  have hgone {c' : Coordinator} {r : Registration} (hr : r ∈ s.coordinator.registry) :
      s.alive = false → c'.registry = [] :=
    fun hgone => absurd (h.alive hr) (by simp [hgone])
  cases ho with
  | nothing => exact h
  | moves hm =>
      refine h.keeps (hm.keeps h.tidy h.books) fun hgone => ?_
      have hids := (hm.spec h.tidy).2.2.accounts
      rw [h.gone hgone] at hids
      simpa using hids
  | @register o halive hf hd =>
      obtain ⟨htidy, hadv, hrear⟩ := register_spec (o := o) h.tidy hd
      obtain ⟨hleft, hinherit⟩ := h.books.vacate o.key
      have hjoin := hleft.join (h.tidy.vacate o.key).toOrderly hinherit
      exact h.keeps ⟨htidy, hjoin.rearranged hrear, hadv⟩
        fun hgone => absurd halive (by simp [hgone])
  | cleanup hr hid =>
      exact h.keeps ⟨h.tidy.remove hr, h.books.remove _, advances_remove _ _⟩ (hgone hr)
  | dispose =>
      refine h.keeps (dispose_keeps h.tidy h.books) fun hgone => ?_
      obtain ⟨-, e⟩ | ⟨-, -, hr, -⟩ := dispose_cases h.tidy
      · rw [e]; exact h.gone hgone
      · exact hr
  | release =>
      refine ⟨tidy_of_empty rfl rfl, bookkept_of_empty rfl h.books.known h.books.distinct, ?_,
        fun _ => rfl⟩
      intro t ht
      obtain ⟨hk, hd⟩ := h.woken t ht
      refine ⟨⟨hk.number, hk.poll, ?_, ?_⟩, hd⟩ <;> simp [System.release]
  | elapse d =>
      refine ⟨h.tidy.of_registry rfl rfl rfl rfl rfl, h.books.of_registry rfl rfl, ?_, h.gone⟩
      intro t ht
      obtain ⟨hk, hd⟩ := h.woken t ht
      exact ⟨⟨hk.number, hk.poll, hk.same, hk.epoch⟩, Nat.le_trans hd (Nat.le_add_right _ _)⟩
  | wake ht hdue =>
      refine ⟨h.tidy, h.books, fun u hu => ?_, h.gone⟩
      rcases List.mem_append.mp hu with hu | hu
      · exact h.woken u hu
      · rw [List.mem_singleton.mp hu]
        exact ⟨h.tidy.known ht, hdue⟩
  | late => exact ⟨h.tidy, h.books, fun u hu => h.woken u (List.mem_filter.mp hu).1, h.gone⟩
  | @skip t r ht hr hid hrt hp =>
      refine ⟨h.tidy.turn hr rfl rfl rfl, ?_, fun u hu => h.woken_turn hr hrt rfl rfl hu, hgone hr⟩
      have hrear : Rearranged s.coordinator (s.coordinator.put r.skipped) :=
        rearranged_put h.tidy.uniqueIds hr rfl
      exact (h.books.rearranged hrear).of_registry rfl rfl
  | begin ht hdue hr hid hrt hp =>
      have hidle := h.tidy.idle _ hr (by simp [hrt])
      refine ⟨h.tidy.turn hr rfl rfl rfl, ?_, fun u hu => h.woken_turn hr hrt rfl rfl hu, hgone hr⟩
      exact (h.books.begin h.tidy hr hidle).of_registry rfl rfl
  | unnoticed hrun hno =>
      refine ⟨h.tidy, h.books.forget fun r hr hname => ?_, h.woken, h.gone⟩
      exact hno r hr (Registration.awaitedRun_eq_some.mpr
        ⟨(h.books.marked r hr).mpr ⟨_, hrun, hname.symm⟩, hname⟩)
  | settle hrun hr hw => exact h.keeps (settle_keeps _ _ h.tidy h.books hr hrun hw) (hgone hr)

theorem Sound.step (h : s.Sound) (e : Event) : (s.step e).Sound := (h.outcome e).sound h

theorem run_append (s : System) (events more : List Event) :
    s.run (events ++ more) = (s.run events).run more := by
  simp [System.run, List.foldl_append]

theorem run_cons (s : System) (e : Event) (rest : List Event) :
    s.run (e :: rest) = (s.step e).run rest := rfl

theorem Sound.run (h : s.Sound) (events : List Event) : (s.run events).Sound := by
  induction events generalizing s with
  | nil => exact h
  | cons e rest ih => exact ih (h.step e)

/-- What every event keeps is kept by every history. -/
theorem Sound.invariant {I : System → Prop} (hs : s.Sound)
    (step : ∀ {s : System}, s.Sound → ∀ e, I s → I (s.step e)) (h : I s) (events : List Event) :
    I (s.run events) := by
  induction events generalizing s with
  | nil => exact h
  | cons e rest ih => exact ih (hs.step e) (step hs e h)

/-- Every event of a history is allowed when it happens. -/
def Lawful (allowed : System → Event → Prop) : System → List Event → Prop
  | _, [] => True
  | s, e :: rest => allowed s e ∧ Lawful allowed (s.step e) rest

instance instDecidableLawful {allowed : System → Event → Prop} [∀ s e, Decidable (allowed s e)] :
    ∀ s events, Decidable (Lawful allowed s events)
  | _, [] => isTrue trivial
  | s, e :: rest =>
      have : Decidable (Lawful allowed (s.step e) rest) := instDecidableLawful (s.step e) rest
      inferInstanceAs (Decidable (allowed s e ∧ Lawful allowed (s.step e) rest))

/-- What every allowed event keeps is kept by a history of such events. -/
theorem Lawful.run {allowed : System → Event → Prop} {I : System → Prop}
    (step : ∀ s e, I s → allowed s e → I (s.step e)) {events : List Event}
    (hl : Lawful allowed s events) (h : I s) : I (s.run events) := by
  induction events generalizing s with
  | nil => exact h
  | cons e rest ih => exact ih hl.2 (step s e h hl.1)

theorem lawful_append {allowed : System → Event → Prop} {events more : List Event} :
    Lawful allowed s (events ++ more) ↔
      Lawful allowed s events ∧ Lawful allowed (s.run events) more := by
  induction events generalizing s with
  | nil => simp [Lawful, System.run]
  | cons e rest ih =>
      rw [List.cons_append, Lawful, Lawful, ih, and_assoc, run_cons]

/-- Whatever happens to a new coordinator, it stays sound. -/
theorem sound_run (config : CoordinatorConfig) (clock : Clock) (draws : Draws)
    (events : List Event) : ((initial config clock draws).run events).Sound :=
  (sound_initial config clock draws).run events

/-! ### One timer each -/

/-- No timer, armed or gone off, can start a run of a registration. -/
structure Untimed (s : System) (r : Registration) : Prop where
  forgotten : r.timer = none
  armed : ∀ t ∈ s.coordinator.timers, t.poll ≠ r.id
  late : ∀ t ∈ s.woken, t.poll = r.id → t.epoch ≠ r.epoch

/-- One timer is armed for a registration, and no other can start a run of it. -/
structure TimedBy (s : System) (r : Registration) (t : Timer) : Prop where
  remembered : r.timer = some t.number
  armed : s.coordinator.timers.filter (·.poll == r.id) = [t]
  current : t.epoch = r.epoch
  late : ∀ u ∈ s.woken, u.poll = r.id → u.epoch = r.epoch → u = t

theorem Sound.untimed (h : s.Sound) (hr : r ∈ s.coordinator.registry) (hnone : r.timer = none) :
    s.Untimed r where
  forgotten := hnone
  armed := by
    intro t ht hpoll
    have hrt := (h.tidy.remembered ht hr hpoll.symm).1
    rw [hnone] at hrt
    exact absurd hrt (by simp)
  late := by
    intro t ht hpoll hepoch
    have hrt := ((h.woken t ht).1.epoch r hr hpoll.symm).2 hepoch
    rw [hnone] at hrt
    exact absurd hrt (by simp)

theorem eq_singleton_of_nodup {α : Type} {a : α} : ∀ {l : List α}, l.Nodup → a ∈ l →
    (∀ x ∈ l, x = a) → l = [a]
  | [], _, ha, _ => absurd ha (by simp)
  | [b], _, _, hall => by rw [hall b (by simp)]
  | b :: x :: rest, hnodup, _, hall => by
      have hb := hall b (by simp)
      have hx := hall x (by simp)
      exact absurd (by simp [hb, hx]) (List.nodup_cons.mp hnodup).1

/-- An armed timer is the one that its registration has. -/
theorem Sound.timedBy (h : s.Sound) (ht : t ∈ s.coordinator.timers)
    (hr : r ∈ s.coordinator.registry) (hid : r.id = t.poll) : s.TimedBy r t := by
  obtain ⟨hn, he⟩ := h.tidy.remembered ht hr hid
  refine ⟨hn, ?_, he.symm, ?_⟩
  · refine eq_singleton_of_nodup ((List.Nodup.of_map _ h.tidy.numbers).filter _)
      (List.mem_filter.mpr ⟨ht, by simpa using hid.symm⟩) fun u hu => ?_
    obtain ⟨hu, hup⟩ := List.mem_filter.mp hu
    have hun := (h.tidy.remembered hu hr (by simpa using (eq_of_beq hup).symm)).1
    exact h.tidy.number_unique hu ht (Option.some.inj (hun.symm.trans hn))
  · intro u hu hup hue
    obtain ⟨hknown, -⟩ := h.woken u hu
    have hun := (hknown.epoch r hr hup.symm).2 hue
    have hnumber : t.number = u.number := Option.some.inj (hn.symm.trans hun)
    exact (hknown.same t ht hnumber).symm

theorem Sound.timed (h : s.Sound) (hr : r ∈ s.coordinator.registry) (hsome : r.timer.isSome) :
    ∃ t, s.TimedBy r t := by
  obtain ⟨n, hn⟩ := Option.isSome_iff_exists.mp hsome
  obtain ⟨t, ht, -, hpoll⟩ := h.tidy.own r hr n hn
  exact ⟨t, h.timedBy ht hr hpoll.symm⟩

theorem TimedBy.mem_filter (h : s.TimedBy r t) :
    t ∈ s.coordinator.timers.filter (·.poll == r.id) := by
  rw [h.armed]
  exact List.mem_singleton.mpr rfl

theorem TimedBy.mem (h : s.TimedBy r t) : t ∈ s.coordinator.timers :=
  (List.mem_filter.mp h.mem_filter).1

theorem TimedBy.poll_eq (h : s.TimedBy r t) : t.poll = r.id :=
  eq_of_beq (List.mem_filter.mp h.mem_filter).2

end System

end FeedPoller
