/-
Every operation leaves coordinators alike that were alike.

An operation that is about the veiled key's registration finds it on both sides.  One that goes
through many registrations goes through the same ones on both sides, but for a refresh: that
one passes over the veiled key where a run of it is going on, and since nobody sees a run
being asked for, it makes no difference.

What is drawn at random is drawn for the same registrations and in the same order.  Delays
are drawn for those that are paused and are asked to run again, and that the veiled
registration is paused can be read off the state on both sides, since the states agree with
the gates.
-/
import FeedPoller.Proofs.Isolation.Veil
import FeedPoller.Session.Gate

namespace FeedPoller

open Simulation

/-- Elements are chosen alike from lists that look alike. -/
theorem map_filter_congr {α β : Type} {f : α → β} {p p' : α → Bool} : ∀ {l l' : List α},
    l.map f = l'.map f → (∀ a ∈ l, ∀ b ∈ l', f a = f b → p a = p' b) →
    (l.filter p).map f = (l'.filter p').map f := by
  intro l
  induction l with
  | nil =>
      intro l' h _
      rw [List.map_eq_nil_iff.mp h.symm]
      rfl
  | cons a rest ih =>
      intro l' h hp
      cases l' with
      | nil => exact absurd h (by simp)
      | cons b rest' =>
          obtain ⟨hab, hrest⟩ := List.cons.inj h
          have htail := ih hrest fun x hx y hy => hp x (by simp [hx]) y (by simp [hy])
          have hhead := hp a (by simp) b (by simp) hab
          rw [List.filter_cons, List.filter_cons, hhead]
          cases p' b with
          | true => simp [hab, htail]
          | false => simpa using htail

namespace Coordinator

variable {hidden : String} {c c' : Coordinator} {waits waits' : List Wait}
  {r r' q q' : Registration} {d : Duration}

/-! ### What surrounds the registrations -/

theorem Alike.withGates (h : Alike hidden waits waits' c c') (gates : Gates) :
    Alike hidden waits waits' { c with gates } { c' with gates } :=
  ⟨h.tidy.withGates gates, h.tidy'.withGates gates, h.laid, h.laid',
    congrArg (fun v : Coordinator => { v with gates }) h.seen, h.theirs⟩

theorem Alike.withDraws (h : Alike hidden waits waits' c c') (draws : Draws) :
    Alike hidden waits waits' { c with draws } { c' with draws } :=
  ⟨h.tidy.of_registry rfl rfl rfl rfl rfl, h.tidy'.of_registry rfl rfl rfl rfl rfl, h.laid, h.laid',
    congrArg (fun v : Coordinator => { v with draws }) h.seen, h.theirs⟩

theorem Alike.withClock (h : Alike hidden waits waits' c c') (clock : Clock) :
    Alike hidden waits waits' { c with clock } { c' with clock } :=
  ⟨h.tidy.of_registry rfl rfl rfl rfl rfl, h.tidy'.of_registry rfl rfl rfl rfl rfl, h.laid, h.laid',
    congrArg (fun v : Coordinator => { v with clock }) h.seen, h.theirs⟩

theorem Alike.draws (h : Alike hidden waits waits' c c') : c.draws = c'.draws :=
  (congrArg Coordinator.draws h.seen :)

theorem Alike.listen (h : Alike hidden waits waits' c c') :
    Alike hidden waits waits' c.listen.1 c'.listen.1 ∧ c.listen.2 = c'.listen.2 := by
  have hset : (c.disposed || c.listening) = (c'.disposed || c'.listening) := by
    rw [h.disposed, h.listening]
  unfold Coordinator.listen
  rw [hset]
  split
  · exact ⟨h, rfl⟩
  · exact ⟨⟨h.tidy.of_registry rfl rfl rfl rfl rfl, h.tidy'.of_registry rfl rfl rfl rfl rfl, h.laid,
      h.laid', congrArg (fun v : Coordinator => { v with listening := true }) h.seen, h.theirs⟩,
      rfl⟩

theorem resumeDelay_cases (c : Coordinator) (jitter : Bool) :
    ((!jitter || c.config.jitterMax.millis64 == 0) = true ∧ c.resumeDelay jitter = (.zero, c)) ∨
    ((!jitter || c.config.jitterMax.millis64 == 0) = false ∧ c.resumeDelay jitter
      = (.ofMillis (c.draws.below c.config.jitterMax.millis64).1,
        { c with draws := (c.draws.below c.config.jitterMax.millis64).2 })) := by
  unfold resumeDelay
  dsimp only
  cases hb : (!jitter || c.config.jitterMax.millis64 == 0) with
  | true => exact Or.inl ⟨rfl, rfl⟩
  | false => exact Or.inr ⟨rfl, rfl⟩

/-- The same delay is drawn on both sides. -/
theorem Alike.resumeDelay (h : Alike hidden waits waits' c c') (jitter : Bool) :
    (c.resumeDelay jitter).1 = (c'.resumeDelay jitter).1 ∧
      Alike hidden waits waits' (c.resumeDelay jitter).2 (c'.resumeDelay jitter).2 := by
  obtain ⟨hb, e⟩ | ⟨hb, e⟩ := resumeDelay_cases c jitter <;>
    obtain ⟨hb', e'⟩ | ⟨hb', e'⟩ := resumeDelay_cases c' jitter <;>
    rw [h.config, hb'] at hb
  · rw [e, e']
    exact ⟨rfl, h⟩
  · exact absurd hb (by simp)
  · exact absurd hb (by simp)
  · have hdrawn : c.draws.below c.config.jitterMax.millis64
        = c'.draws.below c'.config.jitterMax.millis64 := by rw [h.config, h.draws]
    rw [e, e', hdrawn]
    exact ⟨rfl, h.withDraws _⟩

/-! ### Asking for runs, one after the other -/

theorem Alike.resumeOne (h : Alike hidden waits waits' c c') (jitter : Bool) (hr : r ∈ c.registry)
    (hr' : r' ∈ c'.registry) (hq : r.Like q) (hq' : r'.Like q')
    (hv : q.veil hidden = q'.veil hidden) :
    Alike hidden waits waits' (resumeOne jitter c q) (resumeOne jitter c' q') := by
  obtain ⟨hd, hdraw⟩ := h.resumeDelay jitter
  obtain ⟨draws, e⟩ := c.resumeDelay_draws jitter
  obtain ⟨draws', e'⟩ := c'.resumeDelay_draws jitter
  have hmem : r ∈ (c.resumeDelay jitter).2.registry := by rw [e]; exact hr
  have hmem' : r' ∈ (c'.resumeDelay jitter).2.registry := by rw [e']; exact hr'
  rw [Coordinator.resumeOne, Coordinator.resumeOne, hd]
  exact hdraw.schedule hmem hmem' hq.sameTimer hq'.sameTimer hv
    (fun hf => h.tidy.timer_none hr (hq.inFlight ▸ hf))
    (fun hf => h.tidy'.timer_none hr' (hq'.inFlight ▸ hf))

/-- Going through registrations that look the same leaves alike what was alike. -/
theorem Alike.foldl {f : Coordinator → Registration → Coordinator}
    (others : ∀ c r q, q ∈ c.registry → q.id ≠ r.id → q ∈ (f c r).registry)
    (step : ∀ c c' r r', Alike hidden waits waits' c c' → r ∈ c.registry → r' ∈ c'.registry →
      r.veil hidden = r'.veil hidden → Alike hidden waits waits' (f c r) (f c' r')) :
    ∀ {rs rs' : List Registration} {c c' : Coordinator},
      rs.map (·.veil hidden) = rs'.map (·.veil hidden) →
      (rs.map (·.id)).Nodup → (rs'.map (·.id)).Nodup →
      (∀ r ∈ rs, r ∈ c.registry) → (∀ r ∈ rs', r ∈ c'.registry) →
      Alike hidden waits waits' c c' →
      Alike hidden waits waits' (rs.foldl f c) (rs'.foldl f c') := by
  intro rs
  induction rs with
  | nil =>
      intro rs' c c' hv _ _ _ _ h
      rw [List.map_eq_nil_iff.mp hv.symm]
      exact h
  | cons r rest ih =>
      intro rs' c c' hv hids hids' hmem hmem' h
      cases rs' with
      | nil => exact absurd hv (by simp)
      | cons r' rest' =>
          rw [List.map_cons, List.map_cons] at hv
          obtain ⟨hhead, htail⟩ := List.cons.inj hv
          obtain ⟨hfresh, hids⟩ := List.nodup_cons.mp hids
          obtain ⟨hfresh', hids'⟩ := List.nodup_cons.mp hids'
          show Alike hidden waits waits' (rest.foldl f (f c r)) (rest'.foldl f (f c' r'))
          refine ih htail hids hids' (fun q hq => ?_) (fun q hq => ?_)
            (step c c' r r' h (hmem r (by simp)) (hmem' r' (by simp)) hhead)
          · exact others c r q (hmem q (by simp [hq])) fun hid =>
              hfresh (List.mem_map.mpr ⟨q, hq, hid⟩)
          · exact others c' r' q (hmem' q (by simp [hq])) fun hid =>
              hfresh' (List.mem_map.mpr ⟨q, hq, hid⟩)

theorem Alike.suspendWhere (h : Alike hidden waits waits' c c') {applies : Registration → Bool}
    (happ : ∀ q : Registration, applies (q.veil hidden) = applies q) :
    Alike hidden waits waits' (c.suspendWhere applies) (c'.suspendWhere applies) :=
  Alike.foldl (fun _ _ _ => mem_suspend_of_ne)
    (fun _ _ r r' h hr hr' hv => h.suspend hr hr' (.refl r) (.refl r') hv)
    (map_filter_congr h.registry fun _ _ _ _ hv => Registration.eq_of_veil applies happ hv)
    (h.tidy.filter_ids _) (h.tidy'.filter_ids _) (fun _ hr => (List.mem_filter.mp hr).1)
    (fun _ hr => (List.mem_filter.mp hr).1) h

/-- Whether a registration is in the state of a paused one can be seen. -/
theorem state_paused_of_veil {g : Gates} (hs : r.Still g) (hs' : r'.Still g)
    (hv : r.veil hidden = r'.veil hidden) : (r.state == .paused) = (r'.state == .paused) := by
  rw [Bool.eq_iff_iff, beq_iff_eq, beq_iff_eq]
  refine hs.trans (Iff.trans ?_ hs'.symm)
  rw [Registration.isPaused_of_veil hv]

theorem Alike.resumeWhere (h : Alike hidden waits waits' c c') {applies : Registration → Bool}
    (happ : ∀ q : Registration, applies (q.veil hidden) = applies q) (jitter : Bool) {g : Gates}
    (hs : ∀ r ∈ c.registry, r.Still g) (hs' : ∀ r ∈ c'.registry, r.Still g) :
    Alike hidden waits waits' (c.resumeWhere applies jitter) (c'.resumeWhere applies jitter) := by
  refine Alike.foldl (f := Coordinator.resumeOne jitter) (fun _ _ _ => mem_resumeOne_of_ne)
    (fun _ _ r r' h hr hr' hv => h.resumeOne jitter hr hr' (.refl r) (.refl r') hv)
    (map_filter_congr h.registry fun r hr r' hr' hv => ?_)
    (h.tidy.filter_ids _) (h.tidy'.filter_ids _) (fun _ hr => (List.mem_filter.mp hr).1)
    (fun _ hr => (List.mem_filter.mp hr).1) h
  rw [Registration.eq_of_veil applies happ hv, state_paused_of_veil (hs r hr) (hs' r' hr') hv,
    h.gates, Registration.isPaused_of_veil hv]

/-! ### Pauses and gates -/

theorem Alike.pause (h : Alike hidden waits waits' c c') (key : String) :
    Alike hidden waits waits' (c.pause key) (c'.pause key) := by
  unfold Coordinator.pause
  obtain ⟨e, e'⟩ | ⟨r, r', e, e', hv⟩ := h.find? key <;> rw [e, e']
  · exact h
  · exact h.suspend (find?_mem e).1 (find?_mem e').1 ⟨rfl, rfl, rfl, rfl⟩ ⟨rfl, rfl, rfl, rfl⟩
      (Registration.veil_congr ({ · with explicitlyPaused := true }) (fun _ => rfl) (fun _ => rfl)
        (fun _ => rfl) hv)

theorem Alike.resume (h : Alike hidden waits waits' c c') (hs : c.Still) (hs' : c'.Still)
    (key : String) (jitter : Bool) :
    Alike hidden waits waits' (c.resume key jitter) (c'.resume key jitter) := by
  unfold Coordinator.resume
  obtain ⟨e, e'⟩ | ⟨r, r', e, e', hv⟩ := h.find? key <;> rw [e, e']
  · exact h
  · have hr := (find?_mem e).1
    have hr' := (find?_mem e').1
    have hclosed : r.gateClosed c.gates = r'.gateClosed c'.gates := by
      rw [h.gates]
      exact Registration.eq_of_veil (·.gateClosed c'.gates) (fun _ => Registration.veil_gateClosed)
        hv
    have hpaused : r.explicitlyPaused = r'.explicitlyPaused :=
      Registration.eq_of_veil (·.explicitlyPaused) (fun _ => Registration.veil_explicitlyPaused) hv
    have hstate : (r.state != .paused) = (r'.state != .paused) :=
      congrArg (!·) (state_paused_of_veil (hs r hr) (h.gates ▸ hs' r' hr') hv)
    dsimp only
    rw [hclosed, hpaused, hstate]
    split
    · exact h
    · split
      · exact h
      · exact h.resumeOne jitter hr hr' ⟨rfl, rfl, rfl, rfl⟩ ⟨rfl, rfl, rfl, rfl⟩
          (Registration.veil_congr ({ · with explicitlyPaused := false }) (fun _ => rfl)
            (fun _ => rfl) (fun _ => rfl) hv)

theorem Alike.pauseHealthAware (h : Alike hidden waits waits' c c') :
    Alike hidden waits waits' c.pauseHealthAware c'.pauseHealthAware := by
  have hgates := h.withGates { c.gates with backendAvailable := false }
  rw [Coordinator.pauseHealthAware, Coordinator.pauseHealthAware, ← h.gates]
  exact hgates.suspendWhere fun q => by rw [Registration.veil_options]

theorem Alike.pauseAuthenticated (h : Alike hidden waits waits' c c') :
    Alike hidden waits waits' c.pauseAuthenticated c'.pauseAuthenticated := by
  have hgates := h.withGates { c.gates with authGranted := false }
  rw [Coordinator.pauseAuthenticated, Coordinator.pauseAuthenticated, ← h.gates]
  exact hgates.suspendWhere fun q => by rw [Registration.veil_options]

theorem Alike.resumeHealthAware (h : Alike hidden waits waits' c c') (hs : c.Still) (hs' : c'.Still)
    (jitter : Bool) :
    Alike hidden waits waits' (c.resumeHealthAware jitter) (c'.resumeHealthAware jitter) := by
  have hgates := h.withGates { c.gates with backendAvailable := true }
  rw [Coordinator.resumeHealthAware, Coordinator.resumeHealthAware, ← h.gates]
  exact hgates.resumeWhere (fun q => by rw [Registration.veil_options]) jitter hs
    (h.gates ▸ hs')

theorem Alike.resumeAuthenticated (h : Alike hidden waits waits' c c') (hs : c.Still)
    (hs' : c'.Still) :
    Alike hidden waits waits' c.resumeAuthenticated c'.resumeAuthenticated := by
  have hgates := h.withGates { c.gates with authGranted := true }
  rw [Coordinator.resumeAuthenticated, Coordinator.resumeAuthenticated, ← h.gates]
  exact hgates.resumeWhere (fun q => by rw [Registration.veil_options]) false hs
    (h.gates ▸ hs')

/-! ### Refreshing -/

/-- Nobody sees whether a refresh asks for a run of the veiled key. -/
theorem Alike.foldl_besides {rs : List Registration} :
    ∀ {c c' : Coordinator}, (rs.map (·.id)).Nodup → (∀ r ∈ rs, r ∈ c.registry) →
      (∀ r ∈ rs, r.key ≠ hidden → r ∈ c'.registry) → Alike hidden waits waits' c c' →
      Alike hidden waits waits' (rs.foldl (fun c r => c.schedule r d) c)
        ((rs.filter (·.key != hidden)).foldl (fun c r => c.schedule r d) c') := by
  induction rs with
  | nil => intro c c' _ _ _ h; exact h
  | cons r rest ih =>
      intro c c' hids hmem hmem' h
      obtain ⟨hfresh, hids⟩ := List.nodup_cons.mp hids
      have hne : ∀ q ∈ rest, q.id ≠ r.id := fun q hq hid => hfresh (List.mem_map.mpr ⟨q, hq, hid⟩)
      have hr := hmem r (by simp)
      have hrest : ∀ q ∈ rest, q ∈ (c.schedule r d).registry :=
        fun q hq => mem_schedule_of_ne (hmem q (by simp [hq])) (hne q hq)
      by_cases hown : r.key = hidden
      · rw [List.filter_cons_of_neg (by simp [hown])]
        refine ih hids hrest (fun q hq => hmem' q (by simp [hq])) ?_
        exact h.schedule_own hr hown (.refl r) rfl (h.tidy.timer_none hr)
      · rw [List.filter_cons_of_pos (by simpa using hown)]
        have hr' := hmem' r (by simp) hown
        refine ih hids hrest (fun q hq hk => ?_) ?_
        · exact mem_schedule_of_ne (hmem' q (by simp [hq]) hk) (hne q hq)
        · exact h.schedule hr hr' (.refl r) (.refl r) rfl (h.tidy.timer_none hr)
            (h.tidy'.timer_none hr')

theorem Alike.refresh (h : Alike hidden waits waits' c c') :
    Alike hidden waits waits' c.refresh.1 c'.refresh.1 := by
  have hskip : ∀ {c : Coordinator} {waits : List Wait}, c.Tidy → c.LaidWith waits →
      Alike hidden waits waits (c.refreshable.foldl (fun c r => c.schedule r .zero) c)
        ((c.refreshable.filter (·.key != hidden)).foldl (fun c r => c.schedule r .zero) c) := by
    intro c waits ht hl
    refine Alike.foldl_besides (ht.filter_ids _) (fun r hr => (List.mem_filter.mp hr).1)
      (fun r hr _ => (List.mem_filter.mp hr).1) (.refl ht hl)
  have hids : ∀ {c : Coordinator}, c.Tidy →
      ((c.refreshable.filter (·.key != hidden)).map (·.id)).Nodup := by
    intro c ht
    exact (ht.filter_ids _).sublist (List.filter_sublist.map _)
  have hmem : ∀ {c : Coordinator}, ∀ r ∈ c.refreshable.filter (·.key != hidden), r ∈ c.registry :=
    fun r hr => (List.mem_filter.mp (List.mem_filter.mp hr).1).1
  have hboth : Alike hidden waits waits'
      ((c.refreshable.filter (·.key != hidden)).foldl (fun c r => c.schedule r .zero) c)
      ((c'.refreshable.filter (·.key != hidden)).foldl (fun c r => c.schedule r .zero) c') := by
    refine Alike.foldl (f := fun c r => c.schedule r .zero) (fun _ _ _ => mem_schedule_of_ne)
      (fun c c' r r' h hr hr' hv => h.schedule hr hr' (.refl r) (.refl r') hv
        (h.tidy.timer_none hr) (h.tidy'.timer_none hr')) ?_ (hids h.tidy) (hids h.tidy') hmem hmem h
    rw [refreshable, refreshable, List.filter_filter, List.filter_filter]
    refine map_filter_congr h.registry fun r _ r' _ hv => ?_
    rw [Registration.key_of_veil hv, h.gates, Registration.isPaused_of_veil hv]
    by_cases hown : r'.key = hidden
    · simp [hown]
    · have hne : r.key ≠ hidden := Registration.key_of_veil hv ▸ hown
      rw [Registration.eq_of_veil_other (·.inFlight) hne hv fun _ => rfl]
  unfold Coordinator.refresh
  rw [h.disposed]
  split
  · exact h
  · exact ((hskip h.tidy h.laid).trans hboth).trans (hskip h.tidy' h.laid').symm

/-! ### Leaving and joining -/

/-- What is left when a registration has gone, and the timers that were armed for it. -/
theorem theirs_remove (h : c.Tidy) (hl : c.LaidWith waits) (hr : r ∈ c.registry) :
    (c.remove r).theirs hidden waits
      = (c.theirs hidden waits).filter (Entry.passes fun t => t.poll != r.id) := by
  have htimers : (c.remove r).timers = c.timers.filter fun t => t.poll != r.id :=
    disarm_timers h hr (.refl r)
  rw [theirs, htimers, agenda_filter hl]
  refine besides_filter (fun _ => rfl) fun e he hpass => ?_
  cases e with
  | wait k => rfl
  | timer t =>
      obtain ⟨q, hq, hid, -⟩ := h.owner t (hl.mem_timers.mpr he)
      have hne : t.poll ≠ r.id := by simpa [Entry.passes] using hpass
      have hq' : q ∈ (c.remove r).registry := mem_remove.mpr ⟨hq, hid ▸ hne⟩
      simp only [Entry.isOf, ← hid]
      rw [Bool.eq_iff_iff, beq_iff_eq, beq_iff_eq, idOf?_eq_some (h.remove hr).toOrderly hq',
        idOf?_eq_some h.toOrderly hq]

theorem veiled_remove (c : Coordinator) (r : Registration) :
    (c.remove r).veiled hidden = { c.veiled hidden with
      registry := (c.veiled hidden).registry.filter fun q => q.id != r.id } := by
  have hcomp : (fun q : Registration => q.id != r.id) ∘ Registration.veil hidden
      = fun q => q.id != r.id :=
    funext fun q => by simp
  simp only [veiled, remove, disarm, List.filter_map, hcomp]

theorem Alike.remove (h : Alike hidden waits waits' c c') (hr : r ∈ c.registry)
    (hr' : r' ∈ c'.registry) (hv : r.veil hidden = r'.veil hidden) :
    Alike hidden waits waits' (c.remove r) (c'.remove r') where
  tidy := h.tidy.remove hr
  tidy' := h.tidy'.remove hr'
  laid := laid_disarm (q := r) h.laid
  laid' := laid_disarm (q := r') h.laid'
  seen := by rw [veiled_remove, veiled_remove, h.seen, Registration.id_of_veil hv]
  theirs := by
    rw [theirs_remove h.tidy h.laid hr, theirs_remove h.tidy' h.laid' hr', h.theirs,
      Registration.id_of_veil hv]

theorem Alike.vacate (h : Alike hidden waits waits' c c') (key : String) :
    Alike hidden waits waits' (c.vacate key) (c'.vacate key) := by
  unfold Coordinator.vacate
  obtain ⟨e, e'⟩ | ⟨r, r', e, e', hv⟩ := h.find? key <;> rw [e, e']
  · exact h
  · exact h.remove (find?_mem e).1 (find?_mem e').1 hv

theorem Alike.cleanup (h : Alike hidden waits waits' c c') (handle : PollHandle) :
    Alike hidden waits waits' (c.cleanup handle) (c'.cleanup handle) := by
  unfold Coordinator.cleanup
  obtain ⟨e, e'⟩ | ⟨r, r', e, e', hv⟩ := h.findId? handle.id <;> rw [e, e']
  · exact h
  · exact h.remove (findId?_mem e).1 (findId?_mem e').1 hv

/-- The run that a newcomer of another key has to wait for can be seen. -/
theorem Alike.awaitedFor (h : Alike hidden waits waits' c c') {key : String} (hne : key ≠ hidden) :
    c.awaitedFor key = c'.awaitedFor key := by
  unfold Coordinator.awaitedFor
  obtain ⟨e, e'⟩ | ⟨r, r', e, e', hv⟩ := h.find? key <;> rw [e, e']
  have hkey : r.key ≠ hidden := (find?_mem e).2 ▸ hne
  exact Registration.eq_of_veil_other (·.awaitedRun) hkey hv fun _ => rfl

/-- A newcomer has no timer, so nothing that waits is seen in another way. -/
theorem theirs_join (h : c.Tidy) (hl : c.LaidWith waits) (ht : (c.join r).Tidy) :
    (c.join r).theirs hidden waits = c.theirs hidden waits := by
  unfold theirs besides
  congr 1
  refine List.filter_congr fun e he => ?_
  cases e with
  | wait k => rfl
  | timer t =>
      obtain ⟨q, hq, hid, -⟩ := h.owner t (hl.mem_timers.mpr he)
      have hq' : q ∈ (c.join r).registry := List.mem_append_left _ hq
      simp only [Entry.isOf, ← hid]
      rw [Bool.eq_iff_iff, Bool.not_eq_true', Bool.not_eq_true', beq_eq_false_iff_ne,
        beq_eq_false_iff_ne, ne_eq, ne_eq, idOf?_eq_some ht.toOrderly hq',
        idOf?_eq_some h.toOrderly hq]

theorem Alike.join (h : Alike hidden waits waits' c c') (hv : r.veil hidden = r'.veil hidden)
    (ht : (c.join r).Tidy) (ht' : (c'.join r').Tidy) :
    Alike hidden waits waits' (c.join r) (c'.join r') where
  tidy := ht
  tidy' := ht'
  laid := h.laid
  laid' := h.laid'
  seen := by
    have hjoin : ∀ (c : Coordinator) (r : Registration), (c.join r).veiled hidden =
        { c.veiled hidden with
          registry := (c.veiled hidden).registry ++ [r.veil hidden]
          nextId := c.nextId + 1 } := by
      intro c r
      simp [veiled, Coordinator.join]
    rw [hjoin, hjoin, h.seen, hv, h.nextId]
  theirs := by
    rw [theirs_join h.tidy h.laid ht, theirs_join h.tidy' h.laid' ht', h.theirs]

theorem Alike.newcomer (h : Alike hidden waits waits' c c') (o : PollOptions)
    {awaited awaited' : Option Nat} (haw : o.key ≠ hidden → awaited = awaited') :
    (c.newcomer o awaited).veil hidden = (c'.newcomer o awaited').veil hidden := by
  have hlen : c.registry.length = c'.registry.length := by
    simpa using congrArg List.length h.registry
  by_cases hown : o.key = hidden
  · have hkey : (c.newcomer o awaited).key = hidden := hown
    have hkey' : (c'.newcomer o awaited').key = hidden := hown
    rw [Registration.veil_own hkey, Registration.veil_own hkey']
    simp only [Coordinator.newcomer, Registration.face, h.nextId, hlen]
  · simp only [Coordinator.newcomer, h.nextId, hlen, haw hown]

theorem Alike.append (h : Alike hidden waits waits' c c') (o : PollOptions)
    {awaited awaited' : Option Nat} (haw : o.key ≠ hidden → awaited = awaited')
    (hkey : ∀ q ∈ c.registry, q.key ≠ o.key) (hkey' : ∀ q ∈ c'.registry, q.key ≠ o.key)
    (hd : c.disposed = false) :
    Alike hidden waits waits' (c.append o awaited).1 (c'.append o awaited').1 := by
  have hd' : c'.disposed = false := h.disposed ▸ hd
  have hv := h.newcomer o haw
  have htidy := (append_spec awaited h.tidy hkey hd).1
  have htidy' := (append_spec awaited' h.tidy' hkey' hd').1
  have hjoin := h.join hv (h.tidy.join rfl rfl hkey hd) (h.tidy'.join rfl rfl hkey' hd')
  have hclosed : (c.newcomer o awaited).gateClosed c.gates
      = (c'.newcomer o awaited').gateClosed c'.gates := by
    rw [h.gates]
    exact Registration.eq_of_veil (·.gateClosed c'.gates) (fun _ => Registration.veil_gateClosed) hv
  obtain ⟨hg, e⟩ | ⟨hg, e⟩ := append_cases c o awaited <;>
    obtain ⟨hg', e'⟩ | ⟨hg', e'⟩ := append_cases c' o awaited' <;>
    rw [hclosed, hg'] at hg <;> rw [e] at htidy ⊢ <;> rw [e'] at htidy' ⊢
  · exact hjoin.put mem_join_self mem_join_self ⟨rfl, rfl, rfl, rfl⟩ ⟨rfl, rfl, rfl, rfl⟩
      (Registration.veil_congr ({ · with state := .paused }) (fun _ => rfl) (fun _ => rfl)
        (fun _ => rfl) hv) htidy htidy'
  · exact absurd hg (by simp)
  · exact absurd hg (by simp)
  · have hdelay : c.staggerDelay c.registry.length = c'.staggerDelay c'.registry.length := by
      have hlen : c.registry.length = c'.registry.length := by
        simpa using congrArg List.length h.registry
      rw [staggerDelay, staggerDelay, h.config, hlen]
    rw [hdelay]
    exact hjoin.schedule mem_join_self mem_join_self (.refl _) (.refl _) hv (fun _ => rfl)
      fun _ => rfl

theorem register_refused {o : PollOptions} (h : o.fault?.isSome = true ∨ c.disposed = true) :
    ∃ e, (c.register o).2 = .error e := by
  unfold Coordinator.register
  cases hf : o.fault? with
  | some e => exact ⟨e, rfl⟩
  | none =>
      have hd : c.disposed = true := by simpa [hf] using h
      exact ⟨.disposed, by simp [hd]⟩

theorem Alike.register (h : Alike hidden waits waits' c c') (o : PollOptions) :
    Alike hidden waits waits' (c.register o).1 (c'.register o).1 := by
  obtain ⟨hno, e⟩ | ⟨hf, hd, e⟩ := register_cases c o <;>
    obtain ⟨hno', e'⟩ | ⟨hf', hd', e'⟩ := register_cases c' o <;> rw [e, e']
  · exact h
  · rw [h.disposed, hf', hd'] at hno
    exact absurd hno (by simp)
  · rw [← h.disposed, hf, hd] at hno'
    exact absurd hno' (by simp)
  · exact (h.vacate o.key).append o h.awaitedFor (fun q hq => (mem_vacate h.tidy hq).2)
      (fun q hq => (mem_vacate h.tidy' hq).2) ((vacate_disposed c o.key).trans hd)

/-- A registration of another key is answered in the same way. -/
theorem Alike.register_answer (h : Alike hidden waits waits' c c') {o : PollOptions}
    (hne : o.key ≠ hidden) : (c.register o).2 = (c'.register o).2 := by
  have hv := h.vacate o.key
  have hlen : (c.vacate o.key).registry.length = (c'.vacate o.key).registry.length := by
    simpa using congrArg List.length hv.registry
  have hgate : ((c.vacate o.key).newcomer o none).gateClosed (c.vacate o.key).gates
      = ((c'.vacate o.key).newcomer o none).gateClosed (c'.vacate o.key).gates := by
    rw [hv.gates]
    rfl
  unfold Coordinator.register
  rw [h.disposed]
  split
  · rfl
  · split
    · rfl
    · rw [append_answer, append_answer, hgate, h.awaitedFor hne, hv.clock, hv.nextId, hlen,
        staggerDelay, staggerDelay, hv.config]

/-! ### The end -/

theorem besides_none {key : String} {id : Option Nat} {l : List Entry} :
    besides key none (l.filter (Entry.passes fun _ => false))
      = (besides key id l).filter (Entry.passes fun _ => false) := by
  refine besides_filter (fun _ => rfl) fun e _ hpass => ?_
  cases e with
  | timer t => exact absurd hpass (by simp [Entry.passes])
  | wait k => rfl

/-- Everything that was registered is gone, and its timers with it. -/
theorem Alike.clear (h : Alike hidden waits waits' c c') :
    Alike hidden waits waits' { c with registry := [], timers := [] }
      { c' with registry := [], timers := [] } := by
  have hnone : ∀ {c : Coordinator} {waits : List Wait}, c.LaidWith waits →
      Coordinator.theirs hidden { c with registry := [], timers := [] } waits
        = (c.theirs hidden waits).filter (Entry.passes fun _ => false) := by
    intro c waits hl
    have hagenda : agenda ([] : List Timer) waits
        = (agenda c.timers waits).filter (Entry.passes fun _ => false) := by
      rw [← agenda_filter hl, List.filter_false]
    exact (congrArg (besides hidden none) hagenda).trans besides_none
  have hlaid : ∀ {c : Coordinator} {waits : List Wait}, c.LaidWith waits →
      Laid [] waits c.armed := by
    intro c waits hl
    have := (Lays.filter hl fun _ => false).laid
    rwa [List.filter_false] at this
  exact ⟨tidy_of_empty rfl rfl, tidy_of_empty rfl rfl, hlaid (c := c) h.laid,
    hlaid (c := c') h.laid',
    congrArg (fun v : Coordinator => { v with registry := [] }) h.seen,
    by rw [hnone h.laid, hnone h.laid', h.theirs]⟩

/-- To dispose of a coordinator is to clear it and to note that it is disposed of. -/
theorem dispose_eq (h : c.Tidy) : c.dispose = if c.disposed then c else
    { c with registry := [], timers := [], disposed := true, listening := false } := by
  have hframe : ∀ (rs : List Registration) (c : Coordinator),
      rs.foldl disarm c = { c with timers := (rs.foldl disarm c).timers } := by
    intro rs
    induction rs with
    | nil => intro c; rfl
    | cons r rest ih => intro c; exact ih (c.disarm r)
  unfold Coordinator.dispose
  split
  · rfl
  · rw [hframe, h.foldl_disarm_timers]

theorem Alike.dispose (h : Alike hidden waits waits' c c') :
    Alike hidden waits waits' c.dispose c'.dispose := by
  rw [dispose_eq h.tidy, dispose_eq h.tidy', h.disposed]
  split
  · exact h
  · have hclear := h.clear
    exact ⟨tidy_of_empty rfl rfl, tidy_of_empty rfl rfl, hclear.laid, hclear.laid',
      congrArg (fun v : Coordinator => { v with disposed := true, listening := false }) hclear.seen,
      hclear.theirs⟩

/-! ### Runs -/

/-- After a run the same is done with registrations that are as paused. -/
theorem settle_both (hd : c.disposed = c'.disposed)
    (hp : q.isPaused c.gates = q'.isPaused c'.gates) :
    (c.settle q = c.put q ∧ c'.settle q' = c'.put q') ∨
    (c.settle q = c.put { q with state := .paused, pendingDelay := none } ∧
      c'.settle q' = c'.put { q' with state := .paused, pendingDelay := none }) ∨
    (c.settle q = c.schedule { q with pendingDelay := none }
        (q.pendingDelay.getD q.options.interval) ∧
      c'.settle q' = c'.schedule { q' with pendingDelay := none }
        (q'.pendingDelay.getD q'.options.interval)) := by
  unfold Coordinator.settle
  rw [hd, hp]
  cases c'.disposed with
  | true => exact Or.inl ⟨rfl, rfl⟩
  | false =>
      cases q'.isPaused c'.gates with
      | true => exact Or.inr (Or.inl ⟨rfl, rfl⟩)
      | false => exact Or.inr (Or.inr ⟨rfl, rfl⟩)

/-- A run has ended that a registration of another key waited for. -/
theorem Alike.settle (h : Alike hidden waits waits' c c') (hr : r ∈ c.registry)
    (hr' : r' ∈ c'.registry) (hs : r.SameTimer q) (hs' : r'.SameTimer q') (hnone : r.timer = none)
    (hnone' : r'.timer = none) (hne : q.key ≠ hidden) (hv : q.veil hidden = q'.veil hidden) :
    Alike hidden waits waits' (c.settle q) (c'.settle q') := by
  have htidy := (settle_spec h.tidy hr hs hnone).1
  have htidy' := (settle_spec h.tidy' hr' hs' hnone').1
  have hpaused : q.isPaused c.gates = q'.isPaused c'.gates := by
    rw [h.gates, Registration.isPaused_of_veil hv]
  obtain ⟨e, e'⟩ | ⟨e, e'⟩ | ⟨e, e'⟩ := settle_both h.disposed hpaused <;>
    rw [e] at htidy ⊢ <;> rw [e'] at htidy' ⊢
  · exact h.put hr hr' hs hs' hv htidy htidy'
  · exact h.put hr hr' ⟨hs.id, hs.key, hs.timer, hs.epoch⟩ ⟨hs'.id, hs'.key, hs'.timer, hs'.epoch⟩
      (Registration.veil_congr ({ · with state := .paused, pendingDelay := none }) (fun _ => rfl)
        (fun _ => rfl) (fun _ => rfl) hv) htidy htidy'
  · have hdelay : q.pendingDelay.getD q.options.interval
        = q'.pendingDelay.getD q'.options.interval :=
      Registration.eq_of_veil_other (fun q => q.pendingDelay.getD q.options.interval) hne hv
        fun _ => rfl
    rw [hdelay]
    exact h.schedule hr hr' ⟨hs.id, hs.key, hs.timer, hs.epoch⟩
      ⟨hs'.id, hs'.key, hs'.timer, hs'.epoch⟩
      (Registration.veil_congr ({ · with pendingDelay := none }) (fun _ => rfl) (fun _ => rfl)
        (fun _ => rfl) hv) (fun _ => hnone) fun _ => hnone'

/-- Nobody sees a run end that the veiled registration waited for. -/
theorem Alike.settle_own (h : Alike hidden waits waits' c c') (hr : r ∈ c.registry)
    (hown : r.key = hidden) (hs : r.SameTimer q) (hnone : r.timer = none) (hf : q.face = r.face) :
    Alike hidden waits waits' (c.settle q) c' := by
  have htidy := (settle_spec h.tidy hr hs hnone).1
  obtain ⟨-, e⟩ | ⟨-, -, e⟩ | ⟨-, -, e⟩ := settle_cases c q <;> rw [e] at htidy ⊢
  · exact h.put_own hr (Registration.veil_eq_own hown hf) htidy
  · exact h.put_own hr (Registration.veil_eq_own hown hf) htidy
  · exact h.schedule_own hr hown ⟨hs.id, hs.key, hs.timer, hs.epoch⟩
      (Registration.veil_eq_own hown hf) fun _ => hnone

end Coordinator

end FeedPoller
