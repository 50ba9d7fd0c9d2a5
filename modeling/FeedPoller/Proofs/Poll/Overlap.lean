/-
When two runs of one key overlap.

A registration that replaces another one waits for the run that goes on for it, so runs of
one key stay apart through replacements.  Nothing waits for a run whose registration was
cleaned up: it is orphaned, and whoever registers its key again does so without heed and may
begin a second run at once.

`Apart` is kept by every event but a heedless registration.  What carries the induction is
`Attentive`: every registration of a key that has a run going on waits for that run.  A heedless
registration, in turn, can be made to run at once whatever the gates, by opening them and
resuming it, so the condition is exact.
-/
import FeedPoller.Proofs.Poll.Marks

namespace FeedPoller

namespace Coordinator

variable {c c' : Coordinator} {r q : Registration} {runs : List Run} {o : PollOptions}

/-- Every registration of a key that has a run going on waits for that run. -/
def Attentive (c : Coordinator) (runs : List Run) : Prop :=
  ∀ run ∈ runs, ∀ r ∈ c.registry, r.key = run.key → r.awaitedRun = some run.id

theorem Attentive.rearranged (h : Attentive c runs) (hc : Rearranged c c') :
    Attentive c' runs := by
  intro run hrun r' hr' hkey
  obtain ⟨r, hr, ha⟩ := hc.origin hr'
  have hk : r.key = r'.key := Registration.eq_of_account (·.key) (fun _ => rfl) ha
  have hw : r.awaitedRun = r'.awaitedRun :=
    Registration.eq_of_account (·.awaitedRun) (fun _ => rfl) ha
  rw [← hw]
  exact h run hrun r hr (hk.trans hkey)

theorem Attentive.subset (h : Attentive c runs) (hr : ∀ r ∈ c'.registry, r ∈ c.registry) :
    Attentive c' runs :=
  fun run hrun r hr' => h run hrun r (hr r hr')

/-- If somebody waits for every run of a key, a newcomer of that key will. -/
theorem Attentive.register (h : Attentive c runs) (ht : c.Tidy) (hb : Bookkept c runs)
    (hheed : ∀ run ∈ runs, run.key = o.key → ∃ r ∈ c.registry, r.awaitedRun = some run.id) :
    Attentive ((c.vacate o.key).join ((c.vacate o.key).newcomer o (c.awaitedFor o.key))) runs := by
  intro run hrun r hr hkey
  rcases List.mem_append.mp hr with hr | hr
  · exact h run hrun r (mem_vacate ht hr).1 hkey
  · rw [List.mem_singleton.mp hr] at hkey ⊢
    obtain ⟨q, hq, hw⟩ := hheed run hrun hkey.symm
    have hqkey : q.key = o.key := (hb.keyed q hq run hrun hw).symm.trans hkey.symm
    have hfor : c.awaitedFor o.key = some run.id := by
      rw [awaitedFor, ← hqkey, find?_of_mem ht.toOrderly hq]
      exact hw
    rw [hfor]
    rfl

/-- A registration that waits for no run has no run of its key going on. -/
theorem Attentive.key_ne (h : Attentive c runs) (hr : r ∈ c.registry) (hf : r.inFlight = false) :
    ∀ run ∈ runs, run.key ≠ r.key := by
  intro run hrun hkey
  have hw := (Registration.awaitedRun_eq_some.mp (h run hrun r hr hkey.symm)).1
  rw [hf] at hw
  exact absurd hw (by simp)

theorem Attentive.begin (h : Attentive c runs) (ht : c.Tidy) (hb : Bookkept c runs)
    (hr : r ∈ c.registry) (hf : r.inFlight = false) :
    Attentive (c.put r.begun) (runs ++ [⟨r.id, r.key⟩]) := by
  intro run hrun q hq hkey
  rcases mem_put.mp hq with ⟨hq, hid⟩ | ⟨rfl, -⟩ <;> rcases List.mem_append.mp hrun with hrun | hrun
  · exact h run hrun q hq hkey
  · rw [List.mem_singleton.mp hrun] at hkey
    exact absurd (by rw [ht.key_unique hq hr hkey]; rfl) hid
  · exact absurd hkey.symm (h.key_ne hr hf run hrun)
  · rw [List.mem_singleton.mp hrun]
    exact Registration.awaitedRun_eq_some.mpr
      ⟨rfl, (Registration.runId_of_none (r := r) (hb.superseded_none hr hf)).trans rfl⟩

/-- Once a run has ended whoever waited for it has nobody to wait for. -/
theorem Attentive.finish (h : Attentive c runs) (hb : Bookkept c runs) {run : Run}
    (hr : r ∈ c.registry) (hw : r.awaitedRun = some run.id) (hkey : q.key = r.key) :
    Attentive (c.put q) (runs.eraseP (·.id == run.id)) := by
  intro other hother p hp hpkey
  obtain ⟨hother, hne⟩ := (mem_eraseP_of_nodup (fun run : Run => run.id) _ hb.distinct).mp hother
  rcases mem_put.mp hp with ⟨hp, -⟩ | ⟨rfl, -⟩
  · exact h other hother p hp hpkey
  · have hw' : r.awaitedRun = some other.id := h other hother r hr (hkey.symm.trans hpkey)
    rw [hw] at hw'
    exact absurd (Option.some.inj hw').symm hne

/-! ### Running at once -/

theorem gateClosed_open (r : Registration) : r.gateClosed ⟨true, true⟩ = false := by
  simp [Registration.gateClosed]

/-- To resume a registration by name is to ask for a run of it now, if its gates are open. -/
theorem resume_at_once (h : c.Orderly) (hr : r ∈ c.registry) (he : r.explicitlyPaused = true)
    (hf : r.inFlight = false) (hg : c.gates = ⟨true, true⟩)
    (hnow : c.clock.now.nanos < Instant.horizon) :
    c.resume r.key false
      = (c.disarm r).arm { r with explicitlyPaused := false }.scheduled c.clock.now := by
  have hresume : c.resume r.key false = c.schedule { r with explicitlyPaused := false } .zero := by
    rw [resume, find?_of_mem h hr]
    simp [hg, gateClosed_open, he, resumeDelay]
  rw [hresume, schedule, Instant.after_zero hnow]
  exact if_neg (by simp [hf])

/-- Once the gates are open, to pause an idle registration and to resume it makes it due. -/
theorem pause_resume (h : c.Tidy) (hr : r ∈ c.registry) (hf : r.inFlight = false)
    (hg : c.gates = ⟨true, true⟩) (hnow : c.clock.now.nanos < Instant.horizon) :
    let c' := (c.pause r.key).resume r.key false
    ∃ t ∈ c'.timers, t.poll = r.id ∧ t.deadline = c.clock.now ∧ c'.clock = c.clock ∧
      ∃ q ∈ c'.registry, q.id = r.id ∧ q.key = r.key ∧ q.isPaused c'.gates = false := by
  have hpause : c.pause r.key = c.suspend { r with explicitlyPaused := true } := by
    rw [pause, find?_of_mem h.toOrderly hr]
  have htidy : (c.suspend { r with explicitlyPaused := true }).Tidy :=
    h.suspend hr ⟨rfl, rfl, rfl, rfl⟩
  have hmem := mem_put_self (c := c.disarm { r with explicitlyPaused := true }) hr
    (rfl : { r with explicitlyPaused := true }.suspended.id = r.id)
  have hresume := resume_at_once htidy.toOrderly hmem rfl hf hg hnow
  intro c'
  have hc' : c' = _ := (congrArg (·.resume r.key false) hpause).trans hresume
  rw [hc']
  refine ⟨_, List.mem_append_right _ (List.mem_singleton.mpr rfl), rfl, rfl, rfl, ?_⟩
  refine ⟨_, mem_put_self (c := disarm _ _) hmem rfl, rfl, rfl, ?_⟩
  show Registration.isPaused _ c.gates = false
  rw [hg, Registration.isPaused, gateClosed_open]
  rfl

end Coordinator

namespace System

open Coordinator

variable {s : System} {r : Registration} {e : Event} {o : PollOptions}

/-- A run of a key is going on that no registration waits for. -/
def Orphaned (s : System) (key : String) : Prop :=
  ∃ run ∈ s.runs, run.key = key ∧ ∀ r ∈ s.coordinator.registry, r.awaitedRun ≠ some run.id

instance (s : System) (key : String) : Decidable (s.Orphaned key) :=
  inferInstanceAs (Decidable (∃ run ∈ s.runs,
    run.key = key ∧ ∀ r ∈ s.coordinator.registry, r.awaitedRun ≠ some run.id))

/-- An event pays heed to the runs going on unless it registers the key of an orphaned one. -/
def Heedful (s : System) : Event → Prop
  | .register o =>
      s.alive = true → s.coordinator.disposed = false → o.fault? = none → ¬ s.Orphaned o.key
  | _ => True

instance (s : System) : ∀ e, Decidable (s.Heedful e)
  | .register o => inferInstanceAs (Decidable (s.alive = true → s.coordinator.disposed = false →
      o.fault? = none → ¬ s.Orphaned o.key))
  | .cleanup _ | .pause _ | .resume _ _ | .pauseHealthAware | .resumeHealthAware _
  | .pauseAuthenticated | .resumeAuthenticated | .refresh | .listen | .forceGates _ | .dispose
  | .release | .elapse _ | .wake _ | .fire _ | .finish _ _ => isTrue trivial

/-- No two runs of one key are going on. -/
def Apart (s : System) : Prop := (s.runs.map (·.key)).Nodup

instance (s : System) : Decidable s.Apart :=
  inferInstanceAs (Decidable (s.runs.map (·.key)).Nodup)

/-- Runs of one key are apart, and registrations of their keys wait for them. -/
structure Exclusive (s : System) : Prop where
  apart : s.Apart
  attentive : Attentive s.coordinator s.runs

theorem exclusive_initial (config : CoordinatorConfig) (clock : Clock) (draws : Draws) :
    (initial config clock draws).Exclusive where
  apart := List.nodup_nil
  attentive := by simp [Attentive, initial]

/-! ### Events that pay heed -/

/-- A run begins for a registration that waits for none, so no other run of its key goes on. -/
theorem Exclusive.begin (h : s.Exclusive) (hr : r ∈ s.coordinator.registry)
    (hf : r.inFlight = false) : ((s.runs ++ [(⟨r.id, r.key⟩ : Run)]).map (·.key)).Nodup := by
  have hne := h.attentive.key_ne hr hf
  rw [List.map_append]
  refine List.nodup_append.mpr ⟨h.apart, by simp, ?_⟩
  intro k hk m hm
  obtain ⟨run, hrun, rfl⟩ := List.mem_map.mp hk
  rw [List.mem_singleton.mp hm]
  exact hne run hrun

/-- Runs of one key stay apart through every event that pays heed. -/
theorem Outcome.exclusive {s' : System} (ho : Outcome s e s') (hs : s.Sound) (h : s.Exclusive)
    (hheed : s.Heedful e) : s'.Exclusive := by
  cases ho with
  | nothing => exact h
  | moves hm => exact ⟨h.apart, h.attentive.rearranged (hm.spec hs.tidy).2.2⟩
  | @register o halive hf hd =>
      obtain ⟨-, -, hrear⟩ := register_spec (o := o) hs.tidy hd
      have hjoin := h.attentive.register hs.tidy hs.books fun run hrun hkey => by
        by_contra hno
        exact hheed halive hd hf ⟨run, hrun, hkey, by simpa using hno⟩
      exact ⟨h.apart, hjoin.rearranged hrear⟩
  | cleanup hr hid => exact ⟨h.apart, h.attentive.subset fun _ hq => (mem_remove.mp hq).1⟩
  | dispose =>
      refine ⟨h.apart, h.attentive.subset ?_⟩
      obtain ⟨-, e⟩ | ⟨-, -, e, -⟩ := dispose_cases hs.tidy <;> rw [e]
      · exact fun _ hq => hq
      · simp
  | release => exact ⟨h.apart, h.attentive.subset (by simp [System.release])⟩
  | elapse d => exact ⟨h.apart, h.attentive⟩
  | wake ht hdue => exact ⟨h.apart, h.attentive⟩
  | late => exact ⟨h.apart, h.attentive⟩
  | @skip t r ht hr hid hrt hp =>
      have hrear : Rearranged s.coordinator (s.coordinator.put r.skipped) :=
        rearranged_put hs.tidy.uniqueIds hr rfl
      exact ⟨h.apart, (h.attentive.rearranged hrear).subset fun _ hq => hq⟩
  | begin ht hdue hr hid hrt hp =>
      have hidle := hs.tidy.idle _ hr (by simp [hrt])
      have hbegun := h.attentive.begin hs.tidy hs.books hr hidle
      exact ⟨h.begin hr hidle, hbegun.subset fun _ hq => hq⟩
  | unnoticed hrun hno =>
      exact ⟨h.apart.sublist (List.eraseP_sublist.map _),
        fun run hrun => h.attentive run (List.mem_of_mem_eraseP hrun)⟩
  | @settle run failed r hrun hr hw =>
      refine ⟨h.apart.sublist (List.eraseP_sublist.map _), ?_⟩
      obtain ⟨q, timers, armed, ha, -, e⟩ :=
        settle_shape s.coordinator (r.afterRun run s.coordinator.clock.wall failed)
      have hkey : q.key = r.key :=
        (Registration.eq_of_account (·.key) (fun _ => rfl) ha).trans
          (r.afterRun_sameTimer run _ failed).key
      exact (h.attentive.finish hs.books hr hw hkey).subset fun p hp => by rwa [e] at hp

/-! ### Events that pay none -/

/-- What makes an idle registration run at once, up to the turn of its timer. -/
def urging (key : String) : List Event :=
  [.resumeHealthAware false, .resumeAuthenticated, .pause key, .resume key false]

/-- An idle registration can be made to run at once, whatever its pauses and the gates. -/
theorem Sound.urge (h : s.Sound) (hr : r ∈ s.coordinator.registry) (hf : r.inFlight = false)
    (hnow : s.now.nanos < Instant.horizon) :
    ∃ n, (s.run (urging r.key ++ [.fire n])).runs = s.runs ++ [⟨r.id, r.key⟩] := by
  have halive := h.alive hr
  obtain ⟨c, hc⟩ : ∃ c, c = (s.coordinator.resumeHealthAware false).resumeAuthenticated := ⟨_, rfl⟩
  have hrun : s.run (urging r.key)
      = { s with coordinator := (c.pause r.key).resume r.key false } := by
    simp [System.run, urging, System.step, System.call, halive, hc]
  have hsound := h.run (urging r.key)
  rw [hrun] at hsound
  -- Opening the gates leaves the registration as it is but for its plan.
  have hhealth := resumeHealthAware_moves h.tidy false
  have hmoves : Moves s.coordinator c := by
    rw [hc]
    exact hhealth.trans (resumeAuthenticated_moves (hhealth.spec h.tidy).1)
  obtain ⟨htidy, -, hrear⟩ := hmoves.spec h.tidy
  obtain ⟨r', hr', ha⟩ := hrear.successor hr
  have hid : r'.id = r.id := Registration.id_of_account ha
  have hkey : r'.key = r.key := Registration.eq_of_account (·.key) (fun _ => rfl) ha
  have hidle : r'.inFlight = r.inFlight := Registration.eq_of_account (·.inFlight) (fun _ => rfl) ha
  have hgates : c.gates = ⟨true, true⟩ := by
    rw [hc, resumeAuthenticated, resumeWhere_gates, resumeHealthAware, resumeWhere_gates]
  have hclock : c.clock = s.coordinator.clock := hrear.clock
  have hnow' : c.clock.now.nanos < Instant.horizon := by rw [hclock]; exact hnow
  obtain ⟨t, ht, hpoll, hdue, hlater, q, hq, hqid, hqkey, hqp⟩ :=
    pause_resume htidy hr' (hidle.trans hf) hgates hnow'
  rw [hkey] at ht hlater hq hqp
  have hpast : t.deadline ≤ ((c.pause r.key).resume r.key false).clock.now := by
    rw [hlater, hdue]
    exact Nat.le_refl _
  have hfire := hsound.fire_of_due ht hpast hq (hqid.trans hpoll.symm) hqp
  refine ⟨t.number, ?_⟩
  rw [run_append, hrun]
  show (System.fire _ _).1.runs = _
  rw [hfire, hqid, hqkey, hid, hkey]

/-- A heedless registration leaves an idle registration of its key beside the orphaned run. -/
theorem Exclusive.register_heedless (h : s.Exclusive) (hs : s.Sound) (halive : s.alive = true)
    (hd : s.coordinator.disposed = false) (hf : o.fault? = none) (ho : s.Orphaned o.key) :
    (s.step (.register o)).now = s.now ∧ (s.step (.register o)).runs = s.runs ∧
      ∃ r ∈ (s.step (.register o)).coordinator.registry, r.key = o.key ∧ r.inFlight = false := by
  obtain ⟨run, hrun, hkey, hno⟩ := ho
  have hfree : s.coordinator.awaitedFor o.key = none := by
    obtain ⟨-, -, e⟩ | ⟨r, hr, hrkey, -, -⟩ := vacate_cases s.coordinator o.key
    · exact e
    · exact absurd (h.attentive run hrun r hr (hrkey.trans hkey.symm)) (hno r hr)
  have hstep : s.step (.register o) = { s with coordinator := (s.coordinator.register o).1 } :=
    if_pos halive
  obtain ⟨hbad, -⟩ | ⟨-, -, e⟩ := register_cases s.coordinator o
  · simp [hf, hd] at hbad
  · obtain ⟨-, hadv, hrear⟩ := register_spec (o := o) hs.tidy hd
    rw [hstep, e]
    refine ⟨congrArg Clock.now hadv.clock, rfl, ?_⟩
    rw [hfree] at hrear ⊢
    obtain ⟨r, hr, ha⟩ := hrear.successor mem_join_self
    exact ⟨r, hr, Registration.eq_of_account (·.key) (fun _ => rfl) ha,
      Registration.eq_of_account (·.inFlight) (fun _ => rfl) ha⟩

theorem lawful_urging (s : System) (key : String) (n : Nat) :
    Lawful Heedful s (urging key ++ [.fire n]) := by
  simp [urging, Lawful, Heedful]

/--
**Runs of one key stay apart exactly as long as every registration pays heed.**  They are
apart after every history that pays heed; and then an event pays heed if and only if nothing
heedful that comes after it makes two runs of one key overlap.
-/
theorem apart_iff_heedful (config : CoordinatorConfig) (clock : Clock) (draws : Draws)
    (events : List Event) (h : Lawful Heedful (initial config clock draws) events) :
    let s := (initial config clock draws).run events
    s.Apart ∧ (s.now.nanos < Instant.horizon → ∀ e, s.Heedful e ↔
      ∀ more, Lawful Heedful (s.step e) more → ((s.step e).run more).Apart) := by
  intro s
  have hstep : ∀ s e, Sound s ∧ Exclusive s → s.Heedful e →
      Sound (s.step e) ∧ Exclusive (s.step e) :=
    fun s e ⟨hs, hx⟩ hheed => ⟨hs.step e, (hs.outcome e).exclusive hs hx hheed⟩
  have hfirst := And.intro (sound_initial config clock draws) (exclusive_initial config clock draws)
  obtain ⟨hs, hx⟩ : Sound s ∧ Exclusive s := h.run hstep hfirst
  refine ⟨hx.apart, fun hnow e => ⟨fun hheed more hmore => ?_, fun hall => ?_⟩⟩
  · exact (hmore.run hstep (hstep s e ⟨hs, hx⟩ hheed)).2.apart
  · cases e with
    | register o =>
        intro halive hd hf ho
        obtain ⟨hlater, hruns, r, hr, hkey, hidle⟩ := hx.register_heedless hs halive hd hf ho
        obtain ⟨n, hn⟩ := (hs.step (.register o)).urge hr hidle (hlater ▸ hnow)
        have hapart := hall _ (lawful_urging _ r.key n)
        obtain ⟨run, hrun, hrunkey, -⟩ := ho
        rw [Apart, hn, hruns, List.map_append] at hapart
        have hne := (List.nodup_append.mp hapart).2.2 run.key (List.mem_map_of_mem hrun) r.key
        exact hne (by simp) (hrunkey.trans hkey.symm)
    | _ => trivial

/-- A poll every ten seconds. -/
def everyTenSeconds : PollOptions := { key := "a", interval := .ofSeconds 10 }

/-- A registration that is replaced in the middle of its run hands the run over. -/
theorem apart_of_replacement :
    let events := [.register everyTenSeconds, .fire 0, .register everyTenSeconds, .refresh]
    let s := (initial {} default ⟨[], []⟩).run events
    Lawful Heedful (initial {} default ⟨[], []⟩) events ∧
    s.Apart ∧ (s.now.nanos < Instant.horizon → ∀ e, s.Heedful e ↔
      ∀ more, Lawful Heedful (s.step e) more → ((s.step e).run more).Apart) := by
  intro events s
  have h : Lawful Heedful (initial {} default ⟨[], []⟩) events := by decide +kernel
  exact ⟨h, apart_iff_heedful {} default ⟨[], []⟩ events h⟩

/-- A registration that is cleaned up in the middle of its run hands nothing over. -/
theorem overlap_of_cleanup :
    ¬ ((initial {} default ⟨[], []⟩).run [.register everyTenSeconds, .fire 0,
      .elapse (.ofMillis 500), .cleanup ⟨"a", 0⟩, .register everyTenSeconds, .fire 1]).Apart := by
  decide +kernel

end System

end FeedPoller
