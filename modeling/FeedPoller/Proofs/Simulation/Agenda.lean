/-
What waits in a simulation, in the order in which it began to wait.

Timers are kept by the coordinator and all other tasks by the world around it, so turns are
given out from two lists.  `agenda` merges the two into one, in which everything stands in
the order in which it began to wait.  A turn is then that of the first entry whose time
has come (`turn?_eq`), arming and waiting add an entry at the end, and stopping takes
entries away.

Which entry came first is known from numbers: timers are numbered, and a task that begins to
wait notes how many timers there have been.  `Lays` says that a list holds the two others in
the order of these numbers.  It determines the list, which is what the equations for
agendas rest on: to know the agenda after an operation is to name a list and to lay it.
-/
import FeedPoller.Proofs.Poll.Timers
import FeedPoller.Simulation.Tasks

namespace FeedPoller.Simulation

/-- Something that waits for its time: a timer or another task. -/
inductive Entry where
  | timer (t : Timer)
  | wait (k : Wait)

namespace Entry

def due : Entry → Instant
  | timer t => t.deadline
  | wait k => k.due

def timer? : Entry → Option Timer
  | timer t => some t
  | wait _ => none

def wait? : Entry → Option Wait
  | timer _ => none
  | wait k => some k

/-- When the entry began to wait: a task comes before the timers that are armed after it. -/
def stamp : Entry → Nat
  | timer t => 2 * t.number + 1
  | wait k => 2 * k.after

/-- Whether the entry stays when only some of the timers do. -/
def passes (p : Timer → Bool) : Entry → Bool
  | timer t => p t
  | wait _ => true

/-- Whether the time of the entry has come. -/
def isDue (now : Instant) (e : Entry) : Bool := decide (e.due ≤ now)

end Entry

/-- Timers and other tasks in the order in which they began to wait. -/
def agenda (timers : List Timer) (waits : List Wait) : List Entry :=
  List.merge (timers.map .timer) (waits.map .wait) fun a b => decide (a.stamp ≤ b.stamp)

/-- The list holds these timers and these tasks, in the order in which they began to wait. -/
structure Lays (l : List Entry) (timers : List Timer) (waits : List Wait) (armed : Nat) : Prop where
  timers : l.filterMap Entry.timer? = timers
  waits : l.filterMap Entry.wait? = waits
  sorted : l.Pairwise fun a b => a.stamp ≤ b.stamp
  /-- Nothing has been armed yet that is not counted. -/
  stamped : ∀ e ∈ l, e.stamp ≤ 2 * armed

/-- The agenda of these timers and tasks holds all of them in their order. -/
def Laid (timers : List Timer) (waits : List Wait) (armed : Nat) : Prop :=
  Lays (agenda timers waits) timers waits armed

variable {l pre post : List Entry} {timers : List Timer} {waits : List Wait} {armed : Nat}
  {t : Timer} {k : Wait} {e : Entry} {now : Instant}

/-- There is only one way to lay timers and tasks. -/
theorem Lays.agenda_eq (h : Lays l timers waits armed) : agenda timers waits = l := by
  obtain ⟨rfl, rfl, hsorted, -⟩ := h
  unfold agenda
  induction l with
  | nil => exact List.nil_merge _
  | cons e rest ih =>
      obtain ⟨hle, hrest⟩ := List.pairwise_cons.mp hsorted
      have ih := ih hrest
      cases e with
      | timer t =>
          have hts : (Entry.timer t :: rest).filterMap Entry.timer? =
              t :: rest.filterMap Entry.timer? := rfl
          have hks : (Entry.timer t :: rest).filterMap Entry.wait? =
              rest.filterMap Entry.wait? := rfl
          rw [hts, hks, List.map_cons]
          cases hw : rest.filterMap Entry.wait? with
          | nil =>
              rw [hw, List.map_nil, List.merge_right] at ih
              rw [List.map_nil, List.merge_right, ih]
          | cons k ks =>
              have hmem : k ∈ rest.filterMap Entry.wait? := hw ▸ List.mem_cons_self
              obtain ⟨e, he, hek⟩ := List.mem_filterMap.mp hmem
              have hbefore : (Entry.timer t).stamp ≤ (Entry.wait k).stamp := by
                cases e with
                | timer u => exact absurd hek (by simp [Entry.wait?])
                | wait k' => exact Option.some.inj hek ▸ hle _ he
              rw [List.map_cons, List.cons_merge_cons, if_pos (by simpa using hbefore),
                ← List.map_cons, ← hw, ih]
      | wait k =>
          have hts : (Entry.wait k :: rest).filterMap Entry.timer? =
              rest.filterMap Entry.timer? := rfl
          have hks : (Entry.wait k :: rest).filterMap Entry.wait? =
              k :: rest.filterMap Entry.wait? := rfl
          rw [hts, hks, List.map_cons]
          cases ht : rest.filterMap Entry.timer? with
          | nil =>
              rw [ht, List.map_nil, List.nil_merge] at ih
              rw [List.map_nil, List.nil_merge, ih]
          | cons u us =>
              have hmem : u ∈ rest.filterMap Entry.timer? := ht ▸ List.mem_cons_self
              obtain ⟨e, he, heu⟩ := List.mem_filterMap.mp hmem
              have hbefore : (Entry.wait k).stamp ≤ (Entry.timer u).stamp := by
                cases e with
                | timer u' => exact Option.some.inj heu ▸ hle _ he
                | wait k' => exact absurd heu (by simp [Entry.timer?])
              -- A task and a timer never have the same stamp.
              have hnot : ¬ (Entry.timer u).stamp ≤ (Entry.wait k).stamp := by
                simp only [Entry.stamp] at hbefore ⊢
                omega
              rw [List.map_cons, List.cons_merge_cons, if_neg (by simpa using hnot),
                ← List.map_cons, ← ht, ih]

theorem Lays.laid (h : Lays l timers waits armed) : Laid timers waits armed := by
  rw [Laid, h.agenda_eq]
  exact h

/-! ### What operations do to an agenda -/

theorem laid_nil (armed : Nat) : Laid [] [] armed :=
  Lays.laid (l := []) ⟨rfl, rfl, .nil, by simp⟩

/-- Timers are stopped. -/
theorem Lays.filter (h : Lays l timers waits armed) (p : Timer → Bool) :
    Lays (l.filter (Entry.passes p)) (timers.filter p) waits armed where
  timers := by
    rw [← h.timers, List.filterMap_filter, List.filter_filterMap]
    refine List.filterMap_congr fun e _ => ?_
    cases e with
    | timer t => cases hp : p t <;> simp [Entry.passes, Entry.timer?, Option.filter, hp]
    | wait k => rfl
  waits := by
    rw [← h.waits, List.filterMap_filter]
    refine List.filterMap_congr fun e _ => ?_
    cases e with
    | timer t => simp [Entry.wait?]
    | wait k => rfl
  sorted := h.sorted.filter _
  stamped := fun e he => h.stamped e (List.mem_filter.mp he).1

/-- A timer is armed. -/
theorem Lays.arm (h : Lays l timers waits armed) (ht : t.number = armed) :
    Lays (l ++ [.timer t]) (timers ++ [t]) waits (armed + 1) where
  timers := by rw [List.filterMap_append, h.timers]; rfl
  waits := by
    rw [List.filterMap_append, h.waits]
    exact List.append_nil _
  sorted := by
    refine List.pairwise_append.mpr ⟨h.sorted, List.pairwise_singleton _ _, fun a ha b hb => ?_⟩
    have hstamp := h.stamped a ha
    rw [List.mem_singleton.mp hb, Entry.stamp]
    omega
  stamped := by
    intro e he
    rcases List.mem_append.mp he with he | he
    · have := h.stamped e he
      omega
    · rw [List.mem_singleton.mp he, Entry.stamp]
      omega

/-- A task begins to wait. -/
theorem Lays.wait (h : Lays l timers waits armed) (hk : k.after = armed) :
    Lays (l ++ [.wait k]) timers (waits ++ [k]) armed where
  timers := by
    rw [List.filterMap_append, h.timers]
    exact List.append_nil _
  waits := by rw [List.filterMap_append, h.waits]; rfl
  sorted := by
    refine List.pairwise_append.mpr ⟨h.sorted, List.pairwise_singleton _ _, fun a ha b hb => ?_⟩
    have hstamp := h.stamped a ha
    rw [List.mem_singleton.mp hb, Entry.stamp]
    omega
  stamped := by
    intro e he
    rcases List.mem_append.mp he with he | he
    · exact h.stamped e he
    · rw [List.mem_singleton.mp he, Entry.stamp]
      omega

theorem agenda_filter (h : Laid timers waits armed) (p : Timer → Bool) :
    agenda (timers.filter p) waits = (agenda timers waits).filter (Entry.passes p) :=
  (Lays.filter h p).agenda_eq

theorem agenda_arm (h : Laid timers waits armed) (ht : t.number = armed) :
    agenda (timers ++ [t]) waits = agenda timers waits ++ [.timer t] :=
  (Lays.arm h ht).agenda_eq

theorem agenda_wait (h : Laid timers waits armed) (hk : k.after = armed) :
    agenda timers (waits ++ [k]) = agenda timers waits ++ [.wait k] :=
  (Lays.wait h hk).agenda_eq

theorem Laid.mem_timers (h : Laid timers waits armed) :
    t ∈ timers ↔ Entry.timer t ∈ agenda timers waits := by
  conv_lhs => rw [← h.timers]
  rw [List.mem_filterMap]
  constructor
  · rintro ⟨e, he, ht⟩
    cases e with
    | timer u => exact Option.some.inj ht ▸ he
    | wait k => exact absurd ht (by simp [Entry.timer?])
  · exact fun ht => ⟨_, ht, rfl⟩

theorem Laid.mem_waits (h : Laid timers waits armed) :
    k ∈ waits ↔ Entry.wait k ∈ agenda timers waits := by
  conv_lhs => rw [← h.waits]
  rw [List.mem_filterMap]
  constructor
  · rintro ⟨e, he, hk⟩
    cases e with
    | timer u => exact absurd hk (by simp [Entry.wait?])
    | wait k' => exact Option.some.inj hk ▸ he
  · exact fun hk => ⟨_, hk, rfl⟩

/-! ### The first entry whose time has come -/

theorem filter_due_timers (hpre : ∀ e ∈ pre, e.isDue now = false) :
    (pre.filterMap Entry.timer?).filter (fun t => decide (t.deadline ≤ now)) = [] := by
  refine List.filter_eq_nil_iff.mpr fun t ht => ?_
  obtain ⟨e, he, het⟩ := List.mem_filterMap.mp ht
  cases e with
  | timer u => simpa [Entry.isDue, Entry.due, Option.some.inj het] using hpre _ he
  | wait k => exact absurd het (by simp [Entry.timer?])

theorem not_due_waits (hpre : ∀ e ∈ pre, e.isDue now = false) :
    ∀ k ∈ pre.filterMap Entry.wait?, ¬ k.due ≤ now := by
  intro k hk
  obtain ⟨e, he, hek⟩ := List.mem_filterMap.mp hk
  cases e with
  | timer u => exact absurd hek (by simp [Entry.wait?])
  | wait k' => simpa [Entry.isDue, Entry.due, Option.some.inj hek] using hpre _ he

/-- Whatever else is due stands behind the first entry that is. -/
theorem Lays.stamp_le (h : Lays (pre ++ e :: post) timers waits armed)
    (hpre : ∀ e ∈ pre, e.isDue now = false) {e' : Entry} (he' : e' ∈ pre ++ e :: post)
    (hd : e'.isDue now = true) (hne : e' ≠ e) : e.stamp ≤ e'.stamp := by
  rcases List.mem_append.mp he' with he' | he'
  · exact absurd ((hpre e' he').symm.trans hd) (by simp)
  · rcases List.mem_cons.mp he' with rfl | he'
    · exact absurd rfl hne
    · exact (List.pairwise_cons.mp (List.pairwise_append.mp h.sorted).2.1).1 e' he'

/-- A timer that is the first entry to be due comes before the tasks that are due. -/
theorem Lays.first_timer (h : Lays (pre ++ .timer t :: post) timers waits armed)
    (hpre : ∀ e ∈ pre, e.isDue now = false) (ht : t.deadline ≤ now) :
    (timers.filter fun t => decide (t.deadline ≤ now)).head? = some t ∧
      ∀ k ∈ waits, k.due ≤ now → t.number < k.after := by
  constructor
  · rw [← h.timers, List.filterMap_append, List.filter_append, filter_due_timers hpre,
      List.nil_append]
    simp [Entry.timer?, ht]
  · intro k hk hd
    rw [← h.waits] at hk
    obtain ⟨e, he, hek⟩ := List.mem_filterMap.mp hk
    cases e with
    | timer u => exact absurd hek (by simp [Entry.wait?])
    | wait k' =>
        obtain rfl : k' = k := Option.some.inj hek
        have hle := h.stamp_le hpre he (decide_eq_true hd) (by simp)
        simp only [Entry.stamp] at hle
        omega

/-- A task that is the first entry to be due comes before the timers that are due. -/
theorem Lays.first_wait (h : Lays (pre ++ .wait k :: post) timers waits armed)
    (hpre : ∀ e ∈ pre, e.isDue now = false) :
    waits = pre.filterMap Entry.wait? ++ k :: post.filterMap Entry.wait? ∧
      ∀ t ∈ timers, t.deadline ≤ now → ¬ t.number < k.after := by
  constructor
  · rw [← h.waits, List.filterMap_append]
    rfl
  · intro t ht hd
    rw [← h.timers] at ht
    obtain ⟨e, he, het⟩ := List.mem_filterMap.mp ht
    cases e with
    | timer u =>
        obtain rfl : u = t := Option.some.inj het
        have hle := h.stamp_le hpre he (decide_eq_true hd) (by simp)
        simp only [Entry.stamp] at hle
        omega
    | wait k' => exact absurd het (by simp [Entry.timer?])

/-- A task that has its turn no longer waits. -/
theorem Lays.take (h : Lays (pre ++ .wait k :: post) timers waits armed)
    (hpre : ∀ e ∈ pre, e.isDue now = false) (hk : k.due ≤ now) :
    Lays (pre ++ post) timers (waits.eraseP fun k => decide (k.due ≤ now)) armed where
  timers := by
    rw [← h.timers, List.filterMap_append, List.filterMap_append]
    rfl
  waits := by
    rw [(h.first_wait hpre).1, List.eraseP_append_right _ (by simpa using not_due_waits hpre),
      List.eraseP_cons_of_pos (by simpa using hk), List.filterMap_append]
  sorted := h.sorted.sublist ((List.sublist_cons_self _ post).append_left pre)
  stamped := fun e he => h.stamped e (by
    rcases List.mem_append.mp he with he | he
    · exact List.mem_append_left _ he
    · exact List.mem_append_right _ (List.mem_cons_of_mem _ he))

namespace World

variable {w : World}

/-- The world's agenda. -/
def agenda (w : World) : List Entry := Simulation.agenda w.system.coordinator.timers w.waiting

/-- The agenda of the world holds all that waits in it, in its order. -/
def Laid (w : World) : Prop :=
  Simulation.Laid w.system.coordinator.timers w.waiting w.system.coordinator.armed

/-- The world after the turn of an entry. -/
def give (w : World) : Entry → World
  | .timer t => w.fire t.number
  | .wait k =>
    { w with waiting := w.waiting.eraseP fun k => decide (k.due ≤ w.now) }.runTask k.task

/-- The first entry of the agenda whose time has come has the next turn. -/
theorem turn?_eq (h : w.Laid) (hgone : w.system.alive = false → w.system.coordinator.timers = []) :
    w.turn? = (w.agenda.find? (·.isDue w.now)).map w.give := by
  have htimer : (if w.system.alive then w.system.dueTimers.head? else none)
      = w.system.dueTimers.head? := by
    split
    · rfl
    · next hdead => simp [System.dueTimers, hgone (by simpa using hdead)]
  unfold turn?
  simp only [htimer]
  cases hf : w.agenda.find? (·.isDue w.now) with
  | none =>
      have hnone : ∀ e ∈ w.agenda, e.isDue w.now = false := by
        simpa using List.find?_eq_none.mp hf
      have hdue : w.system.dueTimers = [] := by
        rw [System.dueTimers, ← h.timers]
        exact filter_due_timers hnone
      have htasks : w.waiting.findIdx? (fun k => decide (k.due ≤ w.now)) = none := by
        refine List.findIdx?_eq_none_iff.mpr fun k hk => ?_
        rw [← h.waits] at hk
        simpa using not_due_waits hnone k hk
      rw [hdue, htasks]
      rfl
  | some e =>
      obtain ⟨hnow, pre, post, hl, hpre⟩ := List.find?_eq_some_iff_append.mp hf
      have hpre : ∀ e ∈ pre, e.isDue w.now = false := by simpa using hpre
      have hlays : Lays (pre ++ e :: post) w.system.coordinator.timers w.waiting
          w.system.coordinator.armed := hl ▸ h
      cases e with
      | timer t =>
          obtain ⟨hhead, hbefore⟩ := hlays.first_timer hpre (of_decide_eq_true hnow)
          have hhead : w.system.dueTimers.head? = some t := hhead
          rw [hhead]
          cases hi : w.waiting.findIdx? fun k => decide (k.due ≤ w.now) with
          | none => rfl
          | some i =>
              obtain ⟨hlt, hki, -⟩ := List.findIdx?_eq_some_iff_getElem.mp hi
              have hafter : t.number < w.waiting[i].after :=
                hbefore _ (List.getElem_mem hlt) (of_decide_eq_true hki)
              simp [hlt, hafter, give]
      | wait k =>
          have hk : k.due ≤ w.now := of_decide_eq_true hnow
          obtain ⟨hks, hbefore⟩ := hlays.first_wait hpre
          have hnotdue := not_due_waits hpre
          have hi : w.waiting.findIdx? (fun k => decide (k.due ≤ w.now))
              = some (pre.filterMap Entry.wait?).length := by
            rw [hks, List.findIdx?_append, List.findIdx?_eq_none_iff.mpr (by simpa using hnotdue)]
            simp [List.findIdx?_cons, hk]
          have hget : w.waiting[(pre.filterMap Entry.wait?).length]? = some k := by simp [hks]
          have herase : w.waiting.eraseIdx (pre.filterMap Entry.wait?).length
              = w.waiting.eraseP fun k => decide (k.due ≤ w.now) := by
            rw [hks, List.eraseP_append_right _ (by simpa using hnotdue),
              List.eraseP_cons_of_pos (by simpa using hk), List.eraseIdx_append_of_length_le
              (Nat.le_refl _), Nat.sub_self, List.eraseIdx_zero, List.tail_cons]
          rw [hi, Option.bind_some, hget, Option.map_some, Option.map_some, give, ← herase]
          cases hu : w.system.dueTimers.head? with
          | none => rfl
          | some u =>
              obtain ⟨hmem, hd⟩ := List.mem_filter.mp (List.mem_of_head? hu)
              have hnot : ¬ u.number < k.after := hbefore u hmem (of_decide_eq_true hd)
              simp only [hnot, if_false]

end World

end FeedPoller.Simulation
