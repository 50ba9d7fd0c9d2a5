/-
What a handle stands for.

A handle carries the id of the registration it was given for, and outlives it: the key may
be registered again, and any handle may be used at any time and any number of times.  What
makes this safe is that ids are never given out again, so whatever a handle finds by its id
is what it was given for, and once that has left the registry it never comes back.

Who is registered depends on a few of the calls only.  `Ledger` keeps account of them
without looking at timers, gates or runs: a registration that is not refused strikes out its
key and is entered at the end, and a clean-up strikes out its id.  The registry is shown to
be the ledger of its history, step by step.

A registration whose first deadline the clock cannot name is made all the same, although
its caller is given no handle.  So it is in the ledger, but not among the grants.
-/
import FeedPoller.Proofs.Poll.Starts
import FeedPoller.Proofs.Poll.Stillness

namespace FeedPoller

/-- The handle that names a registration. -/
def Registration.handle (r : Registration) : PollHandle := ⟨r.key, r.id⟩

/-- Who is registered, as far as the calls of users decide it. -/
structure Ledger where
  entries : List PollHandle := []
  next : Nat := 0
  closed : Bool := false
deriving DecidableEq, Repr

/-- What an event enters into the ledger, and what it strikes out. -/
def Ledger.enter (l : Ledger) : Event → Ledger
  | .register o =>
      if l.closed || o.fault?.isSome then l
      else { l with
        entries := l.entries.filter (·.key != o.key) ++ [⟨o.key, l.next⟩]
        next := l.next + 1 }
  | .cleanup h => { l with entries := l.entries.filter (·.id != h.id) }
  | .dispose | .release => { l with entries := [], closed := true }
  | _ => l

namespace Coordinator

variable {c c' : Coordinator} {r : Registration}

theorem Rearranged.handles (hc : Rearranged c c') :
    c'.registry.map (·.handle) = c.registry.map (·.handle) :=
  hc.map_eq (·.handle) fun _ => rfl

/-- A timer is a registration's own exactly if the registration remembers it. -/
theorem Tidy.timer_iff (ht : c.Tidy) {t : Timer} (hr : r ∈ c.registry) (hmem : t ∈ c.timers) :
    r.timer = some t.number ↔ t.poll = r.id := by
  constructor
  · intro hn
    obtain ⟨u, hu, hnumber, hpoll⟩ := ht.own r hr _ hn
    rw [← hpoll, ht.number_unique hu hmem hnumber]
  · exact fun hpoll => (ht.remembered hmem hr hpoll.symm).1

/-- With a registration go its timers, and nothing else. -/
theorem Tidy.remove_eq (ht : c.Tidy) (hr : r ∈ c.registry) :
    c.remove r = { c with
      registry := c.registry.filter (·.id != r.id)
      timers := c.timers.filter (·.poll != r.id) } := by
  have htimers : (c.disarm r).timers = c.timers.filter (·.poll != r.id) := by
    refine List.filter_congr fun t hmem => ?_
    rw [Bool.eq_iff_iff, bne_iff_ne, bne_iff_ne, ne_eq, ne_eq, ht.timer_iff hr hmem]
  rw [← htimers]
  rfl

/-- Making room for a key takes exactly that key out. -/
theorem Tidy.vacate_eq (ht : c.Tidy) (key : String) :
    (c.vacate key).registry = c.registry.filter (·.key != key) := by
  obtain ⟨hnone, e, -⟩ | ⟨r, hr, hkey, e, -⟩ := vacate_cases c key <;> rw [e]
  · exact (List.filter_eq_self.mpr fun q hq => by simpa using hnone q hq).symm
  · refine List.filter_congr fun q hq => ?_
    have hiff : q.id = r.id ↔ q.key = key := by
      constructor
      · intro hid
        rw [ht.uniqueIds.eq hq hr hid, hkey]
      · intro hq'
        rw [ht.key_unique hq hr (hq'.trans hkey.symm)]
    rw [Bool.eq_iff_iff, bne_iff_ne, bne_iff_ne, ne_eq, ne_eq, hiff]

theorem Tidy.vacate_handles (ht : c.Tidy) (key : String) :
    (c.vacate key).registry.map (·.handle) =
      (c.registry.map (·.handle)).filter (·.key != key) := by
  rw [ht.vacate_eq, List.filter_map]
  rfl

end Coordinator

namespace System

open Coordinator

variable {s s' : System} {e : Event} {r : Registration} {h : PollHandle} {o : PollOptions}

/-! ### The ledger -/

/-- What a system's ledger says. -/
def ledger (s : System) : Ledger where
  entries := s.coordinator.registry.map (·.handle)
  next := s.coordinator.nextId
  closed := !s.alive || s.coordinator.disposed

/-- Nothing but to register and to leave is entered. -/
theorem Outcome.ledger_eq (ho : Outcome s e s') (hs : s.Sound)
    (hjoin : ∀ o, e ≠ .register o) (hleave : ∀ h, e ≠ .cleanup h)
    (hend : e ≠ .dispose ∧ e ≠ .release) : s'.ledger = s.ledger := by
  have hput {timers : List Timer} {armed : Nat} {woken : List Timer} {runs : List Run}
      {r q : Registration} (hr : r ∈ s.coordinator.registry) (hid : q.id = r.id)
      (hkey : q.key = r.key) :
      ledger { s with coordinator := { s.coordinator.put q with timers, armed }, woken, runs } =
        s.ledger := by
    have hmap := map_put (·.handle) hs.tidy.uniqueIds hr hid
      (by simp [Registration.handle, hid, hkey])
    simp only [ledger, hmap]
    rfl
  cases ho with
  | nothing | elapse | wake | late | unnoticed => rfl
  | moves hm =>
      obtain ⟨-, -, hrear⟩ := hm.spec hs.tidy
      simp only [ledger, hrear.handles, hrear.nextId, hrear.disposed]
  | register => exact absurd rfl (hjoin _)
  | cleanup => exact absurd rfl (hleave _)
  | dispose => exact absurd rfl hend.1
  | release => exact absurd rfl hend.2
  | skip _ hr => exact hput hr rfl rfl
  | begin _ _ hr => exact hput hr rfl rfl
  | @settle run failed r _ hr =>
      obtain ⟨q, timers, armed, ha, -, e⟩ :=
        settle_shape s.coordinator (r.afterRun run s.coordinator.clock.wall failed)
      have hsame := r.afterRun_sameTimer run s.coordinator.clock.wall failed
      rw [e]
      exact hput hr ((Registration.id_of_account ha).trans hsame.id)
        ((Registration.eq_of_account (·.key) (fun _ => rfl) ha).trans hsame.key)

/-- One event changes the registry as it changes the ledger. -/
theorem Sound.ledger_step (hs : s.Sound) (e : Event) : (s.step e).ledger = s.ledger.enter e := by
  cases e with
  | register o =>
      show (s.call fun c => (c.register o).1).ledger = _
      cases ha : s.alive with
      | false => simp [System.call, ledger, Ledger.enter, ha]
      | true =>
          rw [System.call, if_pos ha]
          obtain ⟨hbad, e⟩ | ⟨hf, hd, e⟩ := register_cases s.coordinator o <;> rw [e]
          · rcases hbad with hf | hd
            · simp [ledger, Ledger.enter, ha, hf]
            · simp [ledger, Ledger.enter, ha, hd]
          · obtain ⟨-, -, hrear⟩ := register_spec (o := o) hs.tidy hd
            have hdis := hrear.disposed.trans (vacate_disposed s.coordinator o.key)
            have hnext := hrear.nextId.trans
              (congrArg (· + 1) (vacate_nextId s.coordinator o.key))
            simp only [ledger, Ledger.enter, ha, hf, hd, hrear.handles, hdis, hnext,
              Coordinator.join_registry, List.map_append, hs.tidy.vacate_handles]
            simp [Registration.handle, Registration.key, newcomer, vacate_nextId]
  | cleanup handle =>
      show (s.call (·.cleanup handle)).ledger = _
      cases ha : s.alive with
      | false => simp [System.call, ledger, Ledger.enter, ha, hs.gone ha]
      | true =>
          rw [System.call, if_pos ha]
          simp only [ledger, Ledger.enter, List.filter_map]
          obtain ⟨hno, e⟩ | ⟨r, -, hid, e⟩ := cleanup_cases s.coordinator handle <;> rw [e]
          · rw [List.filter_eq_self.mpr fun q hq => by simpa [Registration.handle] using hno q hq]
          · rw [← hid]
            rfl
  | dispose =>
      show (s.call (·.dispose)).ledger = _
      cases ha : s.alive with
      | false => simp [System.call, ledger, Ledger.enter, ha, hs.gone ha]
      | true =>
          rw [System.call, if_pos ha]
          obtain ⟨hd, e⟩ | ⟨-, hd, hr, -, hn, -⟩ := dispose_cases hs.tidy
          · rw [e]
            simp [ledger, Ledger.enter, ha, hd, hs.tidy.ended hd]
          · simp [ledger, Ledger.enter, ha, hd, hr, hn]
  | release => simp [System.step, System.release, ledger, Ledger.enter]
  | _ => exact (hs.outcome _).ledger_eq hs (by simp) (by simp) (by simp)

/-- The registry is the ledger of its history. -/
theorem Sound.ledger_run (hs : s.Sound) (events : List Event) :
    (s.run events).ledger = events.foldl Ledger.enter s.ledger := by
  induction events generalizing s with
  | nil => rfl
  | cons e rest ih => rw [run_cons, ih (hs.step e), hs.ledger_step, List.foldl_cons]

/-! ### What is true of a handle for good -/

/-- The handle that an event gives to a user, with what it was given for. -/
def granted (s : System) : Event → Option (PollHandle × PollOptions)
  | .register o =>
      if s.alive then (s.coordinator.register o).2.toOption.map fun h => (h, o) else none
  | _ => none

/-- The handles given to users in a history, with what each was given for. -/
def grants : System → List Event → List (PollHandle × PollOptions)
  | _, [] => []
  | s, e :: rest => (s.granted e).toList ++ (s.step e).grants rest

/-- A handle finds what it was given for or nothing, and no later registration of its key. -/
structure Honours (s : System) (h : PollHandle) (o : PollOptions) : Prop where
  key : h.key = o.key
  issued : h.id < s.coordinator.nextId
  options : ∀ r ∈ s.coordinator.registry, r.id = h.id → r.options = o
  latest : ∀ r ∈ s.coordinator.registry, r.key = h.key → h.id ≤ r.id

theorem Honours.step (hh : s.Honours h o) (hs : s.Sound) (e : Event) : (s.step e).Honours h o where
  key := hh.key
  issued := Nat.lt_of_lt_of_le hh.issued ((hs.outcome e).nextId_le hs)
  options := by
    intro r' hr' hid'
    rcases hs.descent e hr' with ⟨hnew, -⟩ | ⟨r, hr, hid, ho⟩
    · have := hh.issued
      omega
    · exact ho ▸ hh.options r hr (hid.trans hid')
  latest := by
    intro r' hr' hkey'
    rcases hs.descent e hr' with ⟨hnew, -⟩ | ⟨r, hr, hid, ho⟩
    · exact Nat.le_trans (Nat.le_of_lt hh.issued) hnew
    · exact hid ▸ hh.latest r hr ((congrArg PollOptions.key ho).trans hkey')

theorem Honours.run (hh : s.Honours h o) (hs : s.Sound) (events : List Event) :
    (s.run events).Honours h o :=
  hs.invariant (I := (·.Honours h o)) (fun hs e hh => hh.step hs e) hh events

theorem granted_eq_some (hg : s.granted e = some (h, o)) :
    e = .register o ∧ s.alive = true ∧ (s.coordinator.register o).2 = .ok h := by
  cases e with
  | register o' =>
      simp only [granted] at hg
      split at hg
      · next ha =>
          cases hres : (s.coordinator.register o').2 with
          | error e => simp [hres, Except.toOption] at hg
          | ok h' =>
              simp only [hres, Except.toOption, Option.map_some, Option.some.injEq,
                Prod.mk.injEq] at hg
              obtain ⟨rfl, rfl⟩ := hg
              exact ⟨rfl, ha, hres⟩
      · exact absurd hg (by simp)
  | _ => exact absurd hg (by simp [granted])

/-- A registration that is not refused leaves the others with other keys and brings one more. -/
theorem Sound.register_origin (hs : s.Sound) (ha : s.alive = true) (hf : o.fault? = none)
    (hd : s.coordinator.disposed = false) (hr : r ∈ (s.step (.register o)).coordinator.registry) :
    (r.key ≠ o.key ∧ r.id < s.coordinator.nextId) ∨
      (r.id = s.coordinator.nextId ∧ r.options = o) := by
  obtain ⟨hbad, -⟩ | ⟨-, -, e⟩ := register_cases s.coordinator o
  · simp [hf, hd] at hbad
  · have hstep : (s.step (.register o)).coordinator = (s.coordinator.register o).1 := by
      show (s.call fun c => (c.register o).1).coordinator = _
      rw [System.call, if_pos ha]
    rw [hstep, e] at hr
    obtain ⟨p, hp, hacc⟩ := (register_spec (o := o) hs.tidy hd).2.2.origin hr
    have hid : p.id = r.id := Registration.id_of_account hacc
    have hopt : p.options = r.options :=
      Registration.eq_of_account (·.options) (fun _ => rfl) hacc
    rcases List.mem_append.mp hp with hp | hp
    · obtain ⟨hmem, hkey⟩ := mem_vacate hs.tidy hp
      exact Or.inl ⟨fun hk => hkey ((congrArg PollOptions.key hopt).trans hk),
        hid ▸ hs.tidy.fresh p hmem⟩
    · obtain rfl := List.mem_singleton.mp hp
      exact Or.inr ⟨hid.symm.trans (vacate_nextId _ _), hopt.symm⟩

/-- Only a registration uses an id up. -/
theorem Sound.nextId_step (hs : s.Sound) (e : Event) :
    (s.step e).coordinator.nextId = (s.ledger.enter e).next :=
  congrArg Ledger.next (hs.ledger_step e)

/-- Whatever is new in the registry was registered just now, with the options of the call. -/
theorem Sound.new_origin (hs : s.Sound) (hr : r ∈ (s.step e).coordinator.registry)
    (hnew : s.coordinator.nextId ≤ r.id) :
    ∃ o, e = .register o ∧ r.options = o ∧ r.id = s.coordinator.nextId ∧ s.alive = true ∧
      s.coordinator.disposed = false ∧ o.fault? = none := by
  have hfresh := (hs.step e).tidy.fresh r hr
  rw [hs.nextId_step] at hfresh
  cases e with
  | register o =>
      by_cases hrefused : (s.ledger.closed || o.fault?.isSome) = true
      · rw [Ledger.enter, if_pos hrefused] at hfresh
        exact absurd hnew (Nat.not_le_of_gt hfresh)
      · have hopen : (s.alive = true ∧ s.coordinator.disposed = false) ∧ o.fault? = none := by
          simpa [ledger] using hrefused
        obtain ⟨⟨ha, hd⟩, hf⟩ := hopen
        rcases hs.register_origin ha hf hd hr with ⟨-, hlt⟩ | ⟨hid, ho⟩
        · exact absurd hnew (Nat.not_le_of_gt hlt)
        · exact ⟨o, rfl, ho, hid, ha, hd, hf⟩
  | _ => exact absurd hnew (Nat.not_le_of_gt hfresh)

/-- The call that gives a handle makes the registration that the handle stands for. -/
theorem Sound.honours_granted (hs : s.Sound) (hg : s.granted e = some (h, o)) :
    h.id = s.coordinator.nextId ∧ (s.step e).Honours h o := by
  obtain ⟨rfl, ha, hok⟩ := granted_eq_some hg
  obtain ⟨hf, hd, rfl⟩ := register_ok hok
  refine ⟨rfl, rfl, ?_, fun r hr hid => ?_, fun r hr hkey => ?_⟩
  · rw [hs.nextId_step]
    simp [Ledger.enter, ledger, ha, hf, hd]
  · rcases hs.register_origin ha hf hd hr with ⟨-, hlt⟩ | ⟨-, ho⟩
    · exact absurd hid (Nat.ne_of_lt hlt)
    · exact ho
  · rcases hs.register_origin ha hf hd hr with ⟨hne, -⟩ | ⟨hid, -⟩
    · exact absurd hkey hne
    · exact Nat.le_of_eq hid.symm

/-- Nobody who registers a poll meets a deadline that the clock cannot name. -/
def Answered (s : System) : Event → Prop
  | .register o => (s.coordinator.register o).2 ≠ .error .deadlineOutOfReach
  | _ => True

instance (s : System) : ∀ e, Decidable (s.Answered e)
  | .register o => inferInstanceAs (Decidable
      ((s.coordinator.register o).2 ≠ .error .deadlineOutOfReach))
  | .cleanup _ | .pause _ | .resume _ _ | .pauseHealthAware | .resumeHealthAware _
  | .pauseAuthenticated | .resumeAuthenticated | .refresh | .listen | .forceGates _ | .dispose
  | .release | .elapse _ | .wake _ | .fire _ | .finish _ _ => isTrue trivial

/-- Whatever an event puts into the registry its caller is given a handle for. -/
theorem Sound.granted_of_new (hs : s.Sound) (hans : s.Answered e)
    (hr : r ∈ (s.step e).coordinator.registry) (hnew : s.coordinator.nextId ≤ r.id) :
    s.granted e = some (r.handle, r.options) := by
  obtain ⟨o, rfl, ho, hid, ha, hd, hf⟩ := hs.new_origin hr hnew
  have hok : (s.coordinator.register o).2 = .ok ⟨o.key, s.coordinator.nextId⟩ := by
    obtain ⟨hbad, -⟩ | ⟨-, -, e⟩ := register_cases s.coordinator o
    · simp [hf, hd] at hbad
    · have hanswer : (s.coordinator.register o).2 ≠ .error .deadlineOutOfReach := hans
      rw [e, append_answer, vacate_nextId] at hanswer ⊢
      split at hanswer
      · exact absurd rfl hanswer
      · next hreach => rw [if_neg hreach]
  simp [granted, ha, hok, Except.toOption, Registration.handle, Registration.key, hid, ho]

/-- Where every caller is answered, whatever is registered was there at first or was granted. -/
theorem Sound.granted_run (hs : s.Sound) {events : List Event}
    (hans : Lawful Answered s events) (hr : r ∈ (s.run events).coordinator.registry) :
    (∃ q ∈ s.coordinator.registry, q.handle = r.handle ∧ q.options = r.options) ∨
      (r.handle, r.options) ∈ s.grants events := by
  induction events generalizing s with
  | nil => exact Or.inl ⟨r, hr, rfl, rfl⟩
  | cons e rest ih =>
      rcases ih (hs.step e) hans.2 hr with ⟨q, hq, hhandle, hopt⟩ | hmem
      · rcases hs.descent e hq with ⟨hnew, -⟩ | ⟨p, hp, hid, ho⟩
        · right
          refine List.mem_append_left _ ?_
          rw [hs.granted_of_new hans.1 hq hnew, hhandle, hopt]
          exact List.mem_singleton.mpr rfl
        · refine Or.inl ⟨p, hp, ?_, ho.trans hopt⟩
          rw [← hhandle, Registration.handle, Registration.handle, Registration.key,
            Registration.key, hid, ho]
      · exact Or.inr (List.mem_append_right _ hmem)

/-- Every handle that was ever given is honoured. -/
theorem Sound.honours_run (hs : s.Sound) (events : List Event) :
    ∀ x ∈ s.grants events, (s.run events).Honours x.1 x.2 := by
  induction events generalizing s with
  | nil => exact fun x hx => absurd hx List.not_mem_nil
  | cons e rest ih =>
      rintro ⟨h, o⟩ hx
      rcases List.mem_append.mp hx with hx | hx
      · have hg : s.granted e = some (h, o) := by simpa using hx
        exact (hs.honours_granted hg).2.run (hs.step e) rest
      · exact ih (hs.step e) _ hx

/-- Handles are given out under ids that only grow. -/
theorem Sound.grants_ascending (hs : s.Sound) (events : List Event) :
    ((s.grants events).map (·.1.id)).Pairwise (· < ·) ∧
      ∀ x ∈ s.grants events, s.coordinator.nextId ≤ x.1.id := by
  induction events generalizing s with
  | nil => exact ⟨List.Pairwise.nil, fun x hx => absurd hx List.not_mem_nil⟩
  | cons e rest ih =>
      obtain ⟨hpair, hlow⟩ := ih (hs.step e)
      have hle := (hs.outcome e).nextId_le hs
      cases hg : s.granted e with
      | none =>
          rw [grants, hg]
          exact ⟨hpair, fun x hx => Nat.le_trans hle (hlow x hx)⟩
      | some x =>
          obtain ⟨hid, hhon⟩ := hs.honours_granted (h := x.1) (o := x.2) hg
          rw [grants, hg]
          refine ⟨List.pairwise_cons.mpr ⟨?_, hpair⟩, fun y hy => ?_⟩
          · intro n hn
            obtain ⟨y, hy, rfl⟩ := List.mem_map.mp hn
            exact Nat.lt_of_lt_of_le hhon.issued (hlow y hy)
          · rcases List.mem_cons.mp hy with rfl | hy
            · exact Nat.le_of_eq hid.symm
            · exact Nat.le_trans hle (hlow y hy)

/-! ### What a handle does -/

/-- A clean-up takes one registration out with its timer, or does nothing. -/
theorem Sound.cleanup_step (hs : s.Sound) (h : PollHandle) :
    (∃ r ∈ s.coordinator.registry, r.id = h.id ∧
      s.step (.cleanup h) = { s with coordinator := { s.coordinator with
        registry := s.coordinator.registry.filter (·.id != h.id)
        timers := s.coordinator.timers.filter (·.poll != h.id) } }) ∨
    ((∀ r ∈ s.coordinator.registry, r.id ≠ h.id) ∧ s.step (.cleanup h) = s) := by
  have hstep : s.step (.cleanup h) = s.call (·.cleanup h) := rfl
  rw [hstep]
  by_cases ha : s.alive = true
  · rw [System.call, if_pos ha]
    obtain ⟨hno, e⟩ | ⟨r, hr, hid, e⟩ := cleanup_cases s.coordinator h <;> rw [e]
    · exact Or.inr ⟨hno, rfl⟩
    · refine Or.inl ⟨r, hr, hid, ?_⟩
      rw [hs.tidy.remove_eq hr, hid]
  · rw [System.call, if_neg ha]
    refine Or.inr ⟨?_, rfl⟩
    rw [hs.gone (by simpa using ha)]
    exact fun r hr => absurd hr List.not_mem_nil

/-- An id that was given out and is not registered any more. -/
structure Retired (s : System) (id : Nat) : Prop where
  issued : id < s.coordinator.nextId
  absent : ∀ r ∈ s.coordinator.registry, r.id ≠ id

theorem Retired.step {id : Nat} (hr : s.Retired id) (hs : s.Sound) (e : Event) :
    (s.step e).Retired id where
  issued := Nat.lt_of_lt_of_le hr.issued ((hs.outcome e).nextId_le hs)
  absent := by
    intro r' hr'
    rcases hs.descent e hr' with ⟨hnew, -⟩ | ⟨r, hmem, hid, -⟩
    · exact Nat.ne_of_gt (Nat.lt_of_lt_of_le hr.issued hnew)
    · exact hid ▸ hr.absent r hmem

/-- Once a registration is gone no run of it begins. -/
theorem Retired.run {id : Nat} (hr : s.Retired id) (hs : s.Sound) (events : List Event) :
    (s.run events).Retired id ∧
      ∀ n run, ((s.run events).fire n).2 = some run → run.id ≠ id := by
  have hgone : (s.run events).Retired id :=
    hs.invariant (I := (·.Retired id)) (fun hs e hr => hr.step hs e) hr events
  refine ⟨hgone, fun n run hrun => ?_⟩
  obtain ⟨r, t, hright⟩ := (hs.run events).rightful hrun
  exact hright.id ▸ hgone.absent r hright.registered

theorem Honours.retired (hh : s.Honours h o) (hs : s.Sound) :
    (s.step (.cleanup h)).Retired h.id := by
  obtain ⟨r, -, -, e⟩ | ⟨hno, e⟩ := hs.cleanup_step h <;> rw [e]
  · exact ⟨hh.issued, fun q hq => by simpa using (List.mem_filter.mp hq).2⟩
  · exact ⟨hh.issued, hno⟩

/--
**Handles are exact.**  In every history the keys are distinct and the ids ascend, and the
registry is what the ledger of the calls says: every key that is still there, in the order of
the latest registrations, each of which gave a handle if no first deadline was out of reach.
A handle that was ever given finds the registration it was given for, or nothing.  It removes
that registration and its timer and nothing else, or changes nothing at all, and no run of that
registration begins afterwards.
-/
theorem handles_exact (config : CoordinatorConfig) (clock : Clock) (draws : Draws)
    (events : List Event) :
    let start := initial config clock draws
    let s := start.run events
    let c := s.coordinator
    (c.keys.Nodup ∧ (c.registry.map (·.id)).Pairwise (· < ·) ∧ ∀ r ∈ c.registry, r.id < c.nextId) ∧
    c.registry.map (·.handle) = (events.foldl Ledger.enter {}).entries ∧
    c.keys = (events.foldl Ledger.enter {}).entries.map (·.key) ∧
    (Lawful Answered start events → ∀ r ∈ c.registry, (r.handle, r.options) ∈ start.grants events) ∧
    ((start.grants events).map (·.1.id)).Pairwise (· < ·) ∧
    ∀ h o, (h, o) ∈ start.grants events →
      h.key = o.key ∧ (∀ r ∈ c.registry, r.key = h.key → h.id ≤ r.id) ∧
      ((∃ r ∈ c.registry, r.id = h.id ∧ r.options = o ∧
          s.step (.cleanup h) = { s with coordinator := { c with
            registry := c.registry.filter (·.id != h.id)
            timers := c.timers.filter (·.poll != h.id) } }) ∨
        ((∀ r ∈ c.registry, r.id ≠ h.id) ∧ s.step (.cleanup h) = s)) ∧
      ∀ more n run, (((s.step (.cleanup h)).run more).fire n).2 = some run → run.id ≠ h.id := by
  intro start s c
  have hfirst : start.Sound := sound_initial config clock draws
  have hs : s.Sound := hfirst.run events
  have hledger : c.registry.map (·.handle) = (events.foldl Ledger.enter {}).entries :=
    congrArg Ledger.entries (hfirst.ledger_run events)
  have hkeys : c.keys = (events.foldl Ledger.enter {}).entries.map (·.key) := by
    rw [← hledger, List.map_map]
    rfl
  refine ⟨⟨hs.tidy.keys, hs.tidy.ids, hs.tidy.fresh⟩, hledger, hkeys, fun hans r hr => ?_,
    (hfirst.grants_ascending events).1, fun h o hx => ?_⟩
  · exact (hfirst.granted_run hans hr).resolve_left fun ⟨q, hq, _⟩ => absurd hq List.not_mem_nil
  have hhon : s.Honours h o := hfirst.honours_run events (h, o) hx
  refine ⟨hhon.key, hhon.latest, ?_, fun more =>
    ((hhon.retired hs).run (hs.step (.cleanup h)) more).2⟩
  obtain ⟨r, hr, hid, e⟩ | hnone := hs.cleanup_step h
  · exact Or.inl ⟨r, hr, hid, hhon.options r hr hid, e⟩
  · exact Or.inr hnone

/-- A key is registered three times, the second time during a run of the first. -/
def reused : List Event :=
  [.register { key := "a", interval := .ofSeconds 10 },
    .register { key := "b", interval := .ofSeconds 10 }, .fire 0,
    .register { key := "a", interval := .ofSeconds 20 }, .cleanup ⟨"a", 0⟩, .cleanup ⟨"a", 2⟩,
    .register { key := "a", interval := .ofSeconds 30 }, .finish 0 false, .elapse (.ofSeconds 1),
    .wake 1]

/-- The handle of the first registration does nothing; that of the last one removes it. -/
theorem handles_exact_reused :
    ((initial {} default ⟨[], []⟩).grants reused =
      [(⟨"a", 0⟩, { key := "a", interval := .ofSeconds 10 }),
        (⟨"b", 1⟩, { key := "b", interval := .ofSeconds 10 }),
        (⟨"a", 2⟩, { key := "a", interval := .ofSeconds 20 }),
        (⟨"a", 3⟩, { key := "a", interval := .ofSeconds 30 })]) ∧
    let s := (initial {} default ⟨[], []⟩).run reused
    (s.coordinator.keys = ["b", "a"] ∧ s.woken.length = 1) ∧
    (∀ r ∈ s.coordinator.registry,
      (r.handle, r.options) ∈ (initial {} default ⟨[], []⟩).grants reused) ∧
    s.step (.cleanup ⟨"a", 0⟩) = s ∧
    (s.step (.cleanup ⟨"a", 3⟩)).coordinator.keys = ["b"] ∧
    ∀ more n run, (((s.step (.cleanup ⟨"a", 3⟩)).run more).fire n).2 = some run → run.id ≠ 3 := by
  have hgrants : (initial {} default ⟨[], []⟩).grants reused =
      [(⟨"a", 0⟩, { key := "a", interval := .ofSeconds 10 }),
        (⟨"b", 1⟩, { key := "b", interval := .ofSeconds 10 }),
        (⟨"a", 2⟩, { key := "a", interval := .ofSeconds 20 }),
        (⟨"a", 3⟩, { key := "a", interval := .ofSeconds 30 })] := by decide +kernel
  have hshown : ((initial {} default ⟨[], []⟩).run reused).coordinator.keys = ["b", "a"] ∧
      ((initial {} default ⟨[], []⟩).run reused).woken.length = 1 := by decide +kernel
  have hgone : ∀ r ∈ ((initial {} default ⟨[], []⟩).run reused).coordinator.registry,
      r.id ≠ 0 := by decide +kernel
  have hleft : (((initial {} default ⟨[], []⟩).run reused).step
      (.cleanup ⟨"a", 3⟩)).coordinator.keys = ["b"] := by decide +kernel
  have hans : Lawful Answered (initial {} default ⟨[], []⟩) reused := by decide +kernel
  obtain ⟨-, -, -, hgranted, -, hall⟩ := handles_exact {} default ⟨[], []⟩ reused
  obtain ⟨-, -, hfirst, -⟩ := hall ⟨"a", 0⟩ { key := "a", interval := .ofSeconds 10 }
    (by rw [hgrants]; simp)
  obtain ⟨-, -, -, hlast⟩ := hall ⟨"a", 3⟩ { key := "a", interval := .ofSeconds 30 }
    (by rw [hgrants]; simp)
  refine ⟨hgrants, hshown, hgranted hans, ?_, hleft, hlast⟩
  rcases hfirst with ⟨r, hr, hid, -⟩ | ⟨-, hsame⟩
  · exact absurd hid (hgone r hr)
  · exact hsame

end System

end FeedPoller
