/-
How registrations come and go, and how runs end.

To register is to make room for the key and to let a newcomer join, so an earlier
registration of the key has left before the new one comes.  The end of a run is brought
to at most one registration: the one it was begun for, or else the one that inherited it.
Both are cut here into cases that say what is put into the registry, and the table of
timers is shown to stay tidy through them.
-/
import FeedPoller.Proofs.Poll.Moves

namespace FeedPoller.Coordinator

variable {c c' : Coordinator} {r r' q : Registration} {o : PollOptions} {id : Nat}
  {key : String} {deadline : Instant}

/-! ### Making room for a key -/

theorem vacate_cases (c : Coordinator) (key : String) :
    ((∀ r ∈ c.registry, r.key ≠ key) ∧ c.vacate key = c ∧ c.awaitedFor key = none) ∨
    (∃ r ∈ c.registry, r.key = key ∧ c.vacate key = c.remove r ∧
      c.awaitedFor key = r.awaitedRun) := by
  unfold vacate awaitedFor
  cases hf : c.find? key with
  | none => exact Or.inl ⟨fun r hr => find?_none hf hr, rfl, rfl⟩
  | some r =>
      obtain ⟨hr, hkey⟩ := find?_mem hf
      exact Or.inr ⟨r, hr, hkey, rfl, rfl⟩

theorem mem_remove : q ∈ (c.remove r).registry ↔ q ∈ c.registry ∧ q.id ≠ r.id := by
  simp [remove]

theorem Tidy.vacate (h : c.Tidy) (key : String) : (c.vacate key).Tidy := by
  obtain ⟨-, e, -⟩ | ⟨r, hr, -, e, -⟩ := vacate_cases c key <;> rw [e]
  · exact h
  · exact h.remove hr

/-- Whoever is still there was there before, under another key. -/
theorem mem_vacate (h : c.Tidy) (hq : q ∈ (c.vacate key).registry) :
    q ∈ c.registry ∧ q.key ≠ key := by
  obtain ⟨hnone, e, -⟩ | ⟨r, hr, hkey, e, -⟩ := vacate_cases c key <;> rw [e] at hq
  · exact ⟨hq, hnone q hq⟩
  · obtain ⟨hq, hid⟩ := mem_remove.mp hq
    refine ⟨hq, fun hk => hid ?_⟩
    rw [h.key_unique hq hr (hk.trans hkey.symm)]

/-- Making room changes nothing but the registry and the timers. -/
theorem vacate_frame (c : Coordinator) (key : String) :
    ∃ registry timers, c.vacate key = { c with registry, timers } := by
  obtain ⟨-, e, -⟩ | ⟨r, -, -, e, -⟩ := vacate_cases c key <;> rw [e]
  · exact ⟨c.registry, c.timers, rfl⟩
  · exact ⟨_, _, rfl⟩

theorem vacate_nextId (c : Coordinator) (key : String) : (c.vacate key).nextId = c.nextId := by
  obtain ⟨_, _, e⟩ := vacate_frame c key
  rw [e]

theorem vacate_disposed (c : Coordinator) (key : String) :
    (c.vacate key).disposed = c.disposed := by
  obtain ⟨_, _, e⟩ := vacate_frame c key
  rw [e]

theorem vacate_advances (c : Coordinator) (key : String) : Advances c (c.vacate key) := by
  obtain ⟨-, e, -⟩ | ⟨r, -, -, e, -⟩ := vacate_cases c key <;> rw [e]
  · exact .refl c
  · exact advances_remove c r

/-! ### Joining -/

/-- A newcomer is paused at once, or its first run is asked for. -/
theorem append_cases (c : Coordinator) (o : PollOptions) (awaited : Option Nat) :
    ((c.newcomer o awaited).gateClosed c.gates = true ∧
      (c.append o awaited).1 = (c.join (c.newcomer o awaited)).put
        { c.newcomer o awaited with state := .paused }) ∨
    ((c.newcomer o awaited).gateClosed c.gates = false ∧
      (c.append o awaited).1 = (c.join (c.newcomer o awaited)).schedule (c.newcomer o awaited)
        (c.staggerDelay c.registry.length)) := by
  have hgates : (c.join (c.newcomer o awaited)).gates = c.gates := rfl
  unfold append
  dsimp only
  rw [hgates]
  cases hg : (c.newcomer o awaited).gateClosed c.gates with
  | true => exact Or.inl ⟨rfl, rfl⟩
  | false => exact Or.inr ⟨rfl, rfl⟩

theorem mem_join_self : r ∈ (c.join r).registry := by simp

/-- What is put in the place of a newcomer stands there alone. -/
theorem put_join (hfresh : ∀ q ∈ c.registry, q.id ≠ r.id) (hid : r'.id = r.id) :
    (c.join r).put r' = c.join r' := by
  have hothers : c.registry.map (fun q => if q.id == r'.id then r' else q) = c.registry := by
    conv_rhs => rw [← List.map_id c.registry]
    refine List.map_congr_left fun q hq => ?_
    simp [hid, hfresh q hq]
  simp only [put, join, List.map_append, hothers]
  simp [hid]

/-- A registration without a timer has none to stop. -/
theorem disarm_of_none (h : r.timer = none) : c.disarm r = c := by
  have hall : c.timers.filter (fun t => r.timer != some t.number) = c.timers := by
    refine List.filter_eq_self.mpr fun t _ => ?_
    rw [h]
    rfl
  rw [disarm, hall]

/-- A newcomer's first timer. -/
theorem schedule_join {d : Duration} (hfresh : ∀ q ∈ c.registry, q.id ≠ r.id)
    (hnone : r.timer = none) (hidle : r.inFlight = false)
    (hd : c.clock.now.after? d = some deadline) :
    (c.join r).schedule r d =
      { c.join { r.scheduled with timer := some c.armed } with
        timers := c.timers ++ [⟨c.armed, r.id, r.epoch + 1, deadline⟩], armed := c.armed + 1 } := by
  have hjoin : (c.join r).clock.now.after? d = some deadline := hd
  have hput : (c.join r).put { r.scheduled with timer := some c.armed } =
      c.join { r.scheduled with timer := some c.armed } := put_join hfresh rfl
  rw [schedule, if_neg (by simp [hidle]), hjoin, disarm_of_none hnone]
  exact congrArg (fun c' : Coordinator =>
    { c' with
      timers := c.timers ++ [Timer.mk c.armed r.id (r.epoch + 1) deadline]
      armed := c.armed + 1 }) hput

/-- A newcomer that no gate is closed to has its timer at once. -/
theorem append_open (hfresh : ∀ q ∈ c.registry, q.id ≠ c.nextId)
    (hopen : (c.newcomer o none).gateClosed c.gates = false)
    (hd : c.clock.now.after? (c.staggerDelay c.registry.length) = some deadline) :
    (c.append o none).1 =
      { c.join { (c.newcomer o none).scheduled with timer := some c.armed } with
        timers := c.timers ++ [⟨c.armed, c.nextId, 1, deadline⟩], armed := c.armed + 1 } := by
  obtain ⟨hclosed, -⟩ | ⟨-, e⟩ := append_cases c o none
  · exact absurd (hopen.symm.trans hclosed) (by simp)
  · rw [e]
    exact schedule_join (r := c.newcomer o none) hfresh rfl rfl hd

/-- Joining is followed by a move or by the mere note that the newcomer is paused. -/
theorem append_spec (awaited : Option Nat) (h : c.Tidy) (hkey : ∀ q ∈ c.registry, q.key ≠ o.key)
    (hd : c.disposed = false) :
    (c.append o awaited).1.Tidy ∧ Advances c (c.append o awaited).1 ∧
      Rearranged (c.join (c.newcomer o awaited)) (c.append o awaited).1 := by
  have hjoin : (c.join (c.newcomer o awaited)).Tidy := h.join rfl rfl hkey hd
  have hadv : Advances c (c.join (c.newcomer o awaited)) := advances_join rfl
  obtain ⟨-, e⟩ | ⟨-, e⟩ := append_cases c o awaited <;> rw [e]
  · refine ⟨hjoin.put mem_join_self ⟨rfl, rfl, rfl, rfl⟩ ?_, ?_, ?_⟩
    · intro hsome
      exact absurd hsome (by simp [newcomer])
    · exact hadv.trans (advances_put mem_join_self rfl (.idle rfl rfl rfl))
    · exact rearranged_put hjoin.uniqueIds mem_join_self rfl
  · obtain ⟨htidy, hadv', hrear⟩ := schedule_spec hjoin mem_join_self (.refl _)
    exact ⟨htidy, hadv.trans hadv', hrear⟩

/-- A registration is refused, or the key is vacated and the newcomer joins. -/
theorem register_cases (c : Coordinator) (o : PollOptions) :
    ((o.fault?.isSome = true ∨ c.disposed = true) ∧ (c.register o).1 = c) ∨
    (o.fault? = none ∧ c.disposed = false ∧
      c.register o = (c.vacate o.key).append o (c.awaitedFor o.key)) := by
  unfold register
  cases hf : o.fault? with
  | some e => exact Or.inl ⟨Or.inl rfl, rfl⟩
  | none =>
      cases hd : c.disposed with
      | true => exact Or.inl ⟨Or.inr rfl, by simp⟩
      | false => exact Or.inr ⟨rfl, rfl, by simp⟩

/-- A newcomer's handle names it, unless its first run would be due out of reach. -/
theorem append_answer (c : Coordinator) (o : PollOptions) (awaited : Option Nat) :
    (c.append o awaited).2 =
      if !(c.newcomer o none).gateClosed c.gates && !awaited.isSome &&
          (c.clock.now.after? (c.staggerDelay c.registry.length)).isNone then
        .error .deadlineOutOfReach
      else .ok ⟨o.key, c.nextId⟩ := by
  have hgate : (c.newcomer o awaited).gateClosed (c.join (c.newcomer o awaited)).gates
      = (c.newcomer o none).gateClosed c.gates := rfl
  unfold Coordinator.append
  dsimp only
  rw [hgate]
  cases (c.newcomer o none).gateClosed c.gates <;> rfl

/-- Only a registration that is not refused gives a handle. -/
theorem register_ok {h : PollHandle} (hok : (c.register o).2 = .ok h) :
    o.fault? = none ∧ c.disposed = false ∧ h = ⟨o.key, c.nextId⟩ := by
  unfold register at hok
  cases hf : o.fault? with
  | some e => simp [hf] at hok
  | none =>
      cases hd : c.disposed with
      | true => simp [hf, hd] at hok
      | false =>
          simp only [hf, hd, Bool.false_eq_true, if_false] at hok
          rw [append_answer, vacate_nextId] at hok
          split at hok
          · exact absurd hok (by simp)
          · exact ⟨rfl, rfl, (Except.ok.inj hok).symm⟩

theorem register_of_new (hf : o.fault? = none) (hd : c.disposed = false)
    (hnew : ∀ q ∈ c.registry, q.key ≠ o.key) : c.register o = c.append o none := by
  obtain ⟨hbad, -⟩ | ⟨-, -, e⟩ := register_cases c o
  · simp [hf, hd] at hbad
  · rw [e]
    obtain ⟨-, hvacated, hawaited⟩ | ⟨q, hq, hkey, -⟩ := vacate_cases c o.key
    · rw [hvacated, hawaited]
    · exact absurd hkey (hnew q hq)

/-- What a registration that is not refused comes to. -/
theorem register_spec (h : c.Tidy) (hd : c.disposed = false) :
    let base := c.vacate o.key
    let c' := (base.append o (c.awaitedFor o.key)).1
    c'.Tidy ∧ Advances c c' ∧
      Rearranged (base.join (base.newcomer o (c.awaitedFor o.key))) c' := by
  obtain ⟨htidy, hadv, hrear⟩ := append_spec (c.awaitedFor o.key) (h.vacate o.key)
    (fun q hq => (mem_vacate h hq).2) ((vacate_disposed c o.key).trans hd)
  exact ⟨htidy, (vacate_advances c o.key).trans hadv, hrear⟩

/-! ### Leaving -/

/-- A handle either removes the registration it was given for, or does nothing. -/
theorem cleanup_cases (c : Coordinator) (handle : PollHandle) :
    ((∀ r ∈ c.registry, r.id ≠ handle.id) ∧ c.cleanup handle = c) ∨
    (∃ r ∈ c.registry, r.id = handle.id ∧ c.cleanup handle = c.remove r) := by
  unfold cleanup
  cases hf : c.findId? handle.id with
  | none => exact Or.inl ⟨fun r hr => findId?_none hf hr, rfl⟩
  | some r => exact Or.inr ⟨r, (findId?_mem hf).1, (findId?_mem hf).2, rfl⟩

theorem mem_foldl_disarm {t : Timer} : ∀ (rs : List Registration) (c : Coordinator),
    t ∈ (rs.foldl disarm c).timers ↔ t ∈ c.timers ∧ ∀ r ∈ rs, r.timer ≠ some t.number := by
  intro rs
  induction rs with
  | nil => intro c; simp
  | cons r rest ih =>
      intro c
      rw [List.foldl_cons, ih, mem_disarm]
      simp [and_assoc]

theorem foldl_disarm_rest : ∀ (rs : List Registration) (c : Coordinator),
    (rs.foldl disarm c).nextId = c.nextId ∧ (rs.foldl disarm c).armed = c.armed ∧
      (rs.foldl disarm c).clock = c.clock := by
  intro rs
  induction rs with
  | nil => intro c; exact ⟨rfl, rfl, rfl⟩
  | cons r rest ih => intro c; exact ih (c.disarm r)

/-- In the end no timer is left, since every timer was some registration's. -/
theorem Tidy.foldl_disarm_timers (h : c.Tidy) : (c.registry.foldl disarm c).timers = [] := by
  refine List.eq_nil_iff_forall_not_mem.mpr fun t ht => ?_
  obtain ⟨ht, hall⟩ := (mem_foldl_disarm _ _).mp ht
  obtain ⟨r, hr, -, hrt, -⟩ := h.owner t ht
  exact hall r hr hrt

theorem dispose_cases (h : c.Tidy) :
    (c.disposed = true ∧ c.dispose = c) ∨
    (c.disposed = false ∧ c.dispose.disposed = true ∧ c.dispose.registry = [] ∧
      c.dispose.timers = [] ∧ c.dispose.nextId = c.nextId ∧ c.dispose.armed = c.armed ∧
      c.dispose.clock = c.clock) := by
  unfold dispose
  cases hd : c.disposed with
  | true => exact Or.inl ⟨rfl, by simp⟩
  | false =>
      right
      obtain ⟨hn, ha, hc⟩ := foldl_disarm_rest c.registry c
      simpa using ⟨h.foldl_disarm_timers, hn, ha, hc⟩

/-- With nothing registered and no timer armed everything fits together. -/
theorem tidy_of_empty (hr : c.registry = []) (ht : c.timers = []) : c.Tidy where
  ids := by simp [hr]
  fresh := by simp [hr]
  keys := by simp [hr]
  ended := fun _ => hr
  numbers := by simp [ht]
  numbered := by simp [ht]
  owner := by simp [ht]
  own := by simp [hr]
  idle := by simp [hr]

theorem Tidy.dispose (h : c.Tidy) : c.dispose.Tidy ∧ Advances c c.dispose := by
  obtain ⟨-, e⟩ | ⟨-, -, hr, ht, hn, ha, hc⟩ := dispose_cases h
  · rw [e]
    exact ⟨h, .refl c⟩
  · refine ⟨tidy_of_empty hr ht, Nat.le_of_eq ha.symm, Nat.le_of_eq hn.symm, hc, ?_, ?_⟩
    · rw [ht]; simp
    · rw [hr]; simp

/-! ### The end of a run -/

/-- After a run the registration is only noted down, or paused, or its next run is asked for. -/
theorem settle_cases (c : Coordinator) (q : Registration) :
    (c.disposed = true ∧ c.settle q = c.put q) ∨
    (c.disposed = false ∧ q.isPaused c.gates = true ∧
      c.settle q = c.put { q with state := .paused, pendingDelay := none }) ∨
    (c.disposed = false ∧ q.isPaused c.gates = false ∧
      c.settle q = c.schedule { q with pendingDelay := none }
        (q.pendingDelay.getD q.options.interval)) := by
  unfold settle
  cases hd : c.disposed with
  | true => exact Or.inl ⟨rfl, by simp⟩
  | false =>
      right
      cases hp : q.isPaused c.gates with
      | true => exact Or.inl ⟨rfl, rfl, by simp⟩
      | false => exact Or.inr ⟨rfl, rfl, by simp⟩

/-- The registration is put back with another plan, and a timer may be armed for it. -/
theorem settle_shape (c : Coordinator) (q : Registration) :
    ∃ q' timers armed, q'.account = q.account ∧ q'.explicitlyPaused = q.explicitlyPaused ∧
      c.settle q = { c.put q' with timers, armed } := by
  obtain ⟨-, e⟩ | ⟨-, -, e⟩ | ⟨-, -, e⟩ := settle_cases c q <;> rw [e]
  · exact ⟨q, c.timers, c.armed, rfl, rfl, rfl⟩
  · exact ⟨{ q with state := .paused, pendingDelay := none }, c.timers, c.armed, rfl, rfl, rfl⟩
  · exact schedule_shape c { q with pendingDelay := none } _

/-- A registration whose run has ended waited for no timer meanwhile. -/
theorem settle_spec (h : c.Tidy) (hr : r ∈ c.registry) (hs : r.SameTimer q)
    (hnone : r.timer = none) : (c.settle q).Tidy ∧ Advances c (c.settle q) := by
  have hq : q.timer = none := hs.timer.trans hnone
  obtain ⟨-, e⟩ | ⟨-, -, e⟩ | ⟨-, -, e⟩ := settle_cases c q <;> rw [e]
  · exact ⟨h.put hr hs (by simp [hq]), advances_put hr hs.id (.idle hs.epoch hnone hq)⟩
  · exact ⟨h.put hr ⟨hs.id, hs.key, hs.timer, hs.epoch⟩ (by simp [hq]),
      advances_put hr hs.id (.idle hs.epoch hnone hq)⟩
  · exact ⟨h.schedule hr ⟨hs.id, hs.key, hs.timer, hs.epoch⟩ fun _ => hnone,
      advances_schedule hr ⟨hs.id, hs.key, hs.timer, hs.epoch⟩ fun _ => hnone⟩

/-- The end of a run is brought to the one it was begun for, or to its heir, or to nobody. -/
theorem finishRun_cases (c : Coordinator) (id : Nat) (failed : Bool) :
    (∃ r ∈ c.registry, r.id = id ∧
      c.finishRun id failed = c.settle (r.completed c.clock.wall failed)) ∨
    ((∀ r ∈ c.registry, r.id ≠ id) ∧ ∃ r ∈ c.registry, r.superseded = some id ∧
      c.finishRun id failed = c.settle r.relieved) ∨
    ((∀ r ∈ c.registry, r.id ≠ id) ∧ (∀ r ∈ c.registry, r.superseded ≠ some id) ∧
      c.finishRun id failed = c) := by
  unfold finishRun
  cases hf : c.findId? id with
  | some r => exact Or.inl ⟨r, (findId?_mem hf).1, (findId?_mem hf).2, rfl⟩
  | none =>
      have hno : ∀ r ∈ c.registry, r.id ≠ id := fun r hr => findId?_none hf hr
      right
      cases hs : c.registry.find? fun r => r.superseded == some id with
      | some r =>
          have hr := List.mem_of_find?_eq_some hs
          have hsup : r.superseded = some id := by simpa using List.find?_some hs
          exact Or.inl ⟨hno, r, hr, hsup, rfl⟩
      | none =>
          have hnone : ∀ r ∈ c.registry, r.superseded ≠ some id := by
            simpa using List.find?_eq_none.mp hs
          exact Or.inr ⟨hno, hnone, rfl⟩

end FeedPoller.Coordinator
