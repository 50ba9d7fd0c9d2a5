/-
What begins to wait and what has its turn, on both sides of the veil.

A task that begins to wait stands at the end of the agenda, on both sides if it is about
another key and unseen if it is about the veiled one.  The first entry whose time has come
leaves the agenda when it has its turn; as long as it is about another key it is the first one
on the other side as well, unless something of the veiled key stands before it there.
-/
import FeedPoller.Proofs.Isolation.Operations

namespace FeedPoller

open Simulation

namespace Simulation

variable {key : String} {id : Option Nat} {l : List Entry} {e : Entry} {now : Instant}

@[simp] theorem Entry.isDue_plain : e.plain.isDue now = e.isDue now := by
  cases e <;> rfl

theorem not_due_besides (h : ∀ e ∈ l, e.isDue now = false) :
    ∀ e ∈ besides key id l, e.isDue now = false := by
  intro e he
  obtain ⟨x, hx, rfl⟩ := List.mem_map.mp he
  rw [Entry.isDue_plain]
  exact h x (List.mem_filter.mp hx).1

/-- The first entry to be due is the first one to be seen, if it can be seen at all. -/
theorem find?_besides (hf : l.find? (·.isDue now) = some e) (hother : e.isOf key id = false) :
    (besides key id l).find? (·.isDue now) = some e.plain := by
  obtain ⟨hdue, pre, post, rfl, hpre⟩ := List.find?_eq_some_iff_append.mp hf
  have hseen : besides key id (pre ++ e :: post)
      = besides key id pre ++ e.plain :: besides key id post := by
    rw [besides_append]
    simp [besides, hother]
  have hbefore : ∀ x ∈ besides key id pre, x.isDue now = false :=
    not_due_besides (by simpa using hpre)
  rw [hseen]
  exact List.find?_eq_some_iff_append.mpr
    ⟨by rw [Entry.isDue_plain]; exact hdue, _, _, rfl, by simpa using hbefore⟩

theorem find?_besides_none (hf : l.find? (·.isDue now) = none) :
    (besides key id l).find? (·.isDue now) = none := by
  refine List.find?_eq_none.mpr fun x hx => ?_
  rw [not_due_besides (by simpa using List.find?_eq_none.mp hf) x hx]
  exact Bool.false_ne_true

end Simulation

namespace Coordinator

variable {hidden : String} {c c' : Coordinator} {waits waits' : List Wait} {k k' : Wait}
  {now : Instant}

/-! ### Beginning to wait -/

theorem theirs_wait (hl : c.LaidWith waits) (hk : k.after = c.armed) :
    c.theirs hidden (waits ++ [k])
      = c.theirs hidden waits ++ besides hidden (c.idOf? hidden) [.wait k] := by
  rw [theirs, agenda_wait hl hk, besides_append]
  rfl

theorem Alike.wait (h : Alike hidden waits waits' c c') (hk : k.after = c.armed)
    (hk' : k'.after = c'.armed) (hdue : k.due = k'.due) (htask : k.task = k'.task) :
    Alike hidden (waits ++ [k]) (waits' ++ [k']) c c' where
  tidy := h.tidy
  tidy' := h.tidy'
  laid := (Lays.wait h.laid hk).laid
  laid' := (Lays.wait h.laid' hk').laid
  seen := h.seen
  theirs := by
    have hsame : besides hidden (c'.idOf? hidden) [.wait k]
        = besides hidden (c'.idOf? hidden) [.wait k'] := by
      cases hown : k'.task.isOf hidden <;>
        simp [besides, Entry.isOf, Entry.plain, htask, hdue, hown]
    rw [theirs_wait h.laid hk, theirs_wait h.laid' hk', h.theirs, h.idOf?, hsame]

/-- Nobody sees a run of the veiled key wait for its end. -/
theorem Alike.wait_own (h : Alike hidden waits waits' c c') (hk : k.after = c.armed)
    (hown : k.task.isOf hidden = true) : Alike hidden (waits ++ [k]) waits' c c' where
  tidy := h.tidy
  tidy' := h.tidy'
  laid := (Lays.wait h.laid hk).laid
  laid' := h.laid'
  seen := h.seen
  theirs := by
    rw [theirs_wait h.laid hk, ← h.theirs]
    simp [besides, Entry.isOf, hown]

/-! ### Having a turn -/

/-- The agenda is left without the first entry to be due when that is a task. -/
theorem agenda_take (hl : c.LaidWith waits)
    (hf : (agenda c.timers waits).find? (·.isDue now) = some (.wait k)) :
    c.LaidWith (waits.eraseP fun k => decide (k.due ≤ now)) ∧
      ∃ pre post, (∀ e ∈ pre, e.isDue now = false) ∧
        agenda c.timers waits = pre ++ .wait k :: post ∧
        agenda c.timers (waits.eraseP fun k => decide (k.due ≤ now)) = pre ++ post := by
  obtain ⟨hdue, pre, post, hsplit, hpre⟩ := List.find?_eq_some_iff_append.mp hf
  have hpre : ∀ e ∈ pre, e.isDue now = false := by simpa using hpre
  have hlays : Lays (pre ++ .wait k :: post) c.timers waits c.armed := hsplit ▸ hl
  have htake := hlays.take hpre (of_decide_eq_true hdue)
  exact ⟨htake.laid, pre, post, hpre, hsplit, htake.agenda_eq⟩

theorem theirs_take (hl : c.LaidWith waits)
    (hf : (agenda c.timers waits).find? (·.isDue now) = some (.wait k))
    (hother : k.task.isOf hidden = false) :
    c.theirs hidden (waits.eraseP fun k => decide (k.due ≤ now))
      = (c.theirs hidden waits).eraseP (·.isDue now) := by
  obtain ⟨-, pre, post, hpre, hl, hl'⟩ := agenda_take hl hf
  have hdue : (Entry.wait k).isDue now = true := List.find?_some hf
  have hseen : besides hidden (c.idOf? hidden) (.wait k :: post)
      = (Entry.wait k).plain :: besides hidden (c.idOf? hidden) post := by
    simp [besides, Entry.isOf, hother]
  have hnot : ∀ x ∈ besides hidden (c.idOf? hidden) pre, ¬ x.isDue now = true := by
    intro x hx
    rw [not_due_besides hpre x hx]
    exact Bool.false_ne_true
  rw [theirs, theirs, hl, hl', besides_append, besides_append, hseen,
    List.eraseP_append_right _ hnot, List.eraseP_cons_of_pos (by simpa using hdue)]

theorem theirs_take_own (hl : c.LaidWith waits)
    (hf : (agenda c.timers waits).find? (·.isDue now) = some (.wait k))
    (hown : k.task.isOf hidden = true) :
    c.theirs hidden (waits.eraseP fun k => decide (k.due ≤ now)) = c.theirs hidden waits := by
  obtain ⟨-, pre, post, -, hl, hl'⟩ := agenda_take hl hf
  have hunseen : besides hidden (c.idOf? hidden) (.wait k :: post)
      = besides hidden (c.idOf? hidden) post := by
    simp [besides, Entry.isOf, hown]
  rw [theirs, theirs, hl, hl', besides_append, besides_append, hunseen]

theorem Alike.take (h : Alike hidden waits waits' c c')
    (hf : (agenda c.timers waits).find? (·.isDue now) = some (.wait k))
    (hf' : (agenda c'.timers waits').find? (·.isDue now) = some (.wait k'))
    (hother : k.task.isOf hidden = false) (hother' : k'.task.isOf hidden = false) :
    Alike hidden (waits.eraseP fun k => decide (k.due ≤ now))
      (waits'.eraseP fun k => decide (k.due ≤ now)) c c' where
  tidy := h.tidy
  tidy' := h.tidy'
  laid := (agenda_take h.laid hf).1
  laid' := (agenda_take h.laid' hf').1
  seen := h.seen
  theirs := by rw [theirs_take h.laid hf hother, theirs_take h.laid' hf' hother', h.theirs]

/-- Nobody sees a task of the veiled key have its turn. -/
theorem Alike.take_own (h : Alike hidden waits waits' c c')
    (hf : (agenda c.timers waits).find? (·.isDue now) = some (.wait k))
    (hown : k.task.isOf hidden = true) :
    Alike hidden (waits.eraseP fun k => decide (k.due ≤ now)) waits' c c' where
  tidy := h.tidy
  tidy' := h.tidy'
  laid := (agenda_take h.laid hf).1
  laid' := h.laid'
  seen := h.seen
  theirs := (theirs_take_own h.laid hf hown).trans h.theirs

/-- A task of no key that waits on one side has one like it on the other. -/
theorem Alike.waiting (h : Alike hidden waits waits' c c') (hk : k ∈ waits)
    (hother : k.task.isOf hidden = false) :
    ∃ k' ∈ waits', k'.due = k.due ∧ k'.task = k.task := by
  have hmem : (Entry.wait k).plain ∈ c.theirs hidden waits :=
    List.mem_map_of_mem (List.mem_filter.mpr ⟨h.laid.mem_waits.mp hk, by simp [Entry.isOf, hother]⟩)
  rw [h.theirs] at hmem
  obtain ⟨e, he, hplain⟩ := List.mem_map.mp hmem
  cases e with
  | timer t => exact absurd hplain (by simp [Entry.plain])
  | wait k' =>
      have hsame : { k' with after := 0 } = { k with after := 0 } := Entry.wait.inj hplain
      exact ⟨k', h.laid'.mem_waits.mpr (List.mem_filter.mp he).1,
        (congrArg Wait.due hsame :), (congrArg Wait.task hsame :)⟩

/-- Whether something else than a run of the veiled key is about to happen is the same. -/
theorem Alike.any_waits (h : Alike hidden waits waits' c c') {p : Task → Bool}
    (hp : ∀ task : Task, task.isOf hidden = true → p task = false) :
    (waits.any fun k => decide (k.due ≤ now) && p k.task)
      = waits'.any fun k => decide (k.due ≤ now) && p k.task := by
  have himp : ∀ {c c' : Coordinator} {waits waits' : List Wait}, Alike hidden waits waits' c c' →
      (waits.any fun k => decide (k.due ≤ now) && p k.task) = true →
      (waits'.any fun k => decide (k.due ≤ now) && p k.task) = true := by
    intro c c' waits waits' h hany
    obtain ⟨k, hk, hok⟩ := List.any_eq_true.mp hany
    have hother : k.task.isOf hidden = false := by
      cases hown : k.task.isOf hidden with
      | false => rfl
      | true => exact absurd hok (by simp [hp _ hown])
    obtain ⟨k', hk', hdue, htask⟩ := h.waiting hk hother
    exact List.any_eq_true.mpr ⟨k', hk', by rw [hdue, htask]; exact hok⟩
  rw [Bool.eq_iff_iff]
  exact ⟨himp h, himp h.symm⟩

end Coordinator

end FeedPoller
