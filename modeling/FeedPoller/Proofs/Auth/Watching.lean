/-
No change of the token is lost.

A turn of the watcher throws notices away, and the file may change at any moment of it.
What saves the last change is the order of things: the notice of a change comes behind the
change, and the look comes behind the throwing away.  So as long as there is a notice, or
the watcher has not looked yet, nothing need be known about what is published; what has to
be kept is that a watcher without notices has found, or has published, what is there now.
A change breaks that, and its event mends it by being a notice.  Therefore the invariant
`Watchful` is claimed only of histories in which every change has been reported.
-/
import FeedPoller.Auth.System
import FeedPoller.Proofs.Auth.Token
import Mathlib.Data.List.Induction

namespace FeedPoller

/-! ### Publishing -/

namespace Watch

/-- A value is published only if it is another one. -/
theorem publish_cases (w : Watch) (value : Bool) :
    (w.value = value ∧ (w.publish value).1 = w) ∨
    (w.value = (!value) ∧
      (w.publish value).1 = { w with value := !w.value, version := w.version + 1 }) := by
  by_cases h : w.value = value
  · exact .inl ⟨h, by simp [publish, h]⟩
  · have hother : w.value = (!value) := Bool.eq_not.mpr h
    exact .inr ⟨hother, by simp [publish, hother]⟩

end Watch

/-! ### Reported histories -/

section

variable {path : String} {events : List TokenEvent}

/-- Where nothing has changed nothing is to be reported. -/
theorem reported_of_quiet (h : ∀ e ∈ events, ∀ c, e ≠ .change c) : Reported path events := by
  intro before c after hsplit
  exact absurd rfl (h (.change c) (by simp [hsplit]) c)

/-- A change at the beginning is reported by what comes behind it. -/
theorem reported_change {c : FileChange}
    (h : ∃ paths, .tell paths ∈ events ∧ Path.isAmong path paths = true)
    (hrest : Reported path events) : Reported path (.change c :: events) := by
  intro before c' after hsplit
  cases before with
  | nil =>
    obtain ⟨-, rfl⟩ := List.cons.inj hsplit
    exact h
  | cons e before =>
    obtain ⟨-, htail⟩ := List.cons.inj hsplit
    exact hrest before c' after htail

/-- A change is yet to be reported. -/
theorem not_reported_change {c : FileChange} : ¬ Reported path (events ++ [.change c]) := by
  intro h
  obtain ⟨paths, hmem, -⟩ := h events c [] rfl
  simp at hmem

/-- A reported history was reported before its last event, unless that is about the file. -/
theorem Reported.init {last : TokenEvent} (h : Reported path (events ++ [last]))
    (hlast : ∀ paths, last = .tell paths → Path.isAmong path paths = false) :
    Reported path events := by
  intro before c after hsplit
  obtain ⟨paths, hmem, hamong⟩ := h before c (after ++ [last]) (by simp [hsplit])
  rw [List.mem_append, List.mem_singleton] at hmem
  rcases hmem with hmem | htell
  · exact ⟨paths, hmem, hamong⟩
  · rw [hlast paths htell.symm] at hamong
    exact Bool.noConfusion hamong

end

namespace TokenSystem

variable {s : TokenSystem}

@[simp] theorem run_nil (s : TokenSystem) : s.run [] = s := rfl

theorem run_append (s : TokenSystem) (before after : List TokenEvent) :
    s.run (before ++ after) = (s.run before).run after := List.foldl_append

@[simp] theorem run_cons (s : TokenSystem) (e : TokenEvent) (events : List TokenEvent) :
    s.run (e :: events) = (s.step e).run events := rfl

theorem run_concat (s : TokenSystem) (events : List TokenEvent) (e : TokenEvent) :
    s.run (events ++ [e]) = (s.run events).step e := by
  simp [run_append]

/-! ### What a step does -/

section

variable (t : TokenWatcher)

theorem receive_cases :
    t.receive = t ∨
    (t.phase = .waiting ∧ t.receive = { t with notices := t.notices - 1, phase := .pausing }) := by
  unfold TokenWatcher.receive
  split
  · rename_i n hphase hnotices
    exact .inr ⟨hphase, by simp [hnotices]⟩
  · exact .inl rfl

theorem wake_cases :
    t.wake = t ∨ (t.phase = .pausing ∧ t.wake = { t with phase := .draining }) := by
  unfold TokenWatcher.wake
  split
  · rename_i hphase
    exact .inr ⟨hphase, rfl⟩
  · exact .inl rfl

theorem drain_cases :
    t.drain = t ∨
    (t.phase = .draining ∧ t.drain = { t with notices := t.notices - 1 }) ∨
    (t.phase = .draining ∧ t.notices = 0 ∧ t.drain = { t with phase := .looking }) := by
  unfold TokenWatcher.drain
  split
  · rename_i n hphase hnotices
    exact .inr (.inl ⟨hphase, by simp [hnotices]⟩)
  · rename_i hphase hnotices
    exact .inr (.inr ⟨hphase, hnotices, rfl⟩)
  · exact .inl rfl

/-- A look ends the turn of a watcher that is about to take it, and has published the finding. -/
theorem look_of_looking (h : t.phase = .looking) (file : FileContent) :
    t.look file = { (t.publish file).1 with phase := .waiting } := by
  simp [TokenWatcher.look, h]

end

theorem step_tell (s : TokenSystem) (paths : List String) :
    (Path.isAmong s.path paths = true ∧
      s.step (.tell paths) = { s with watcher := s.watcher.notify }) ∨
    (Path.isAmong s.path paths = false ∧ s.step (.tell paths) = s) := by
  cases hamong : Path.isAmong s.path paths with
  | true => exact .inl ⟨rfl, by simp [step, hamong]⟩
  | false => exact .inr ⟨rfl, by simp [step, hamong]⟩

theorem step_look (s : TokenSystem) :
    s.step .look = s ∨
    (s.watcher.phase = .looking ∧ s.step .look = { s with found := some s.file }) := by
  simp only [step]
  split
  · rename_i hphase hfound
    exact .inr ⟨hphase, rfl⟩
  · exact .inl rfl

theorem step_publish (s : TokenSystem) :
    s.step .publish = s ∨
    ∃ file, s.found = some file ∧
      s.step .publish = { s with watcher := s.watcher.look file, found := none } := by
  cases hfound : s.found with
  | none => exact .inl (by simp [step, hfound])
  | some file => exact .inr ⟨file, rfl, by simp [step, hfound]⟩

@[simp] theorem step_path (s : TokenSystem) (e : TokenEvent) : (s.step e).path = s.path := by
  cases e with
  | tell paths => rcases s.step_tell paths with ⟨-, h⟩ | ⟨-, h⟩ <;> rw [h]
  | look => rcases s.step_look with h | ⟨-, h⟩ <;> rw [h]
  | publish => rcases s.step_publish with h | ⟨file, -, h⟩ <;> rw [h]
  | _ => rfl

@[simp] theorem run_path (s : TokenSystem) (events : List TokenEvent) :
    (s.run events).path = s.path := by
  induction events generalizing s with
  | nil => rfl
  | cons e events ih => rw [run_cons, ih, step_path]

/-- A step leaves what is published alone, or it publishes the other value. -/
theorem step_watch (s : TokenSystem) (e : TokenEvent) :
    (s.step e).watcher.watch = s.watcher.watch ∨
    (s.step e).watcher.watch =
      { s.watcher.watch with
        value := !s.watcher.watch.value, version := s.watcher.watch.version + 1 } := by
  cases e with
  | change c => exact .inl rfl
  | tell paths =>
    rcases s.step_tell paths with ⟨-, h⟩ | ⟨-, h⟩
    · exact .inl (by rw [h]; rfl)
    · exact .inl (by rw [h])
  | receive => rcases receive_cases s.watcher with h | ⟨-, h⟩ <;> exact .inl (by simp [step, h])
  | wake => rcases wake_cases s.watcher with h | ⟨-, h⟩ <;> exact .inl (by simp [step, h])
  | drain =>
    rcases drain_cases s.watcher with h | ⟨-, h⟩ | ⟨-, -, h⟩ <;> exact .inl (by simp [step, h])
  | look => rcases s.step_look with h | ⟨-, h⟩ <;> exact .inl (by rw [h])
  | publish =>
    rcases s.step_publish with h | ⟨file, -, h⟩
    · exact .inl (by rw [h])
    · rw [h]
      by_cases hphase : s.watcher.phase = .looking
      · rw [look_of_looking _ hphase]
        rcases s.watcher.watch.publish_cases file.holdsToken with ⟨-, hsame⟩ | ⟨-, hother⟩
        · exact .inl hsame
        · exact .inr hother
      · have hsame : s.watcher.look file = s.watcher := by
          unfold TokenWatcher.look
          split
          · rename_i hlooking
            exact absurd hlooking hphase
          · rfl
        exact .inl (by rw [hsame])

/-! ### What is kept -/

/-- A system whose watcher has found something only while it is about to publish it. -/
def Orderly (s : TokenSystem) : Prop := ∀ file, s.found = some file → s.watcher.phase = .looking

/-- What a watcher without notices has published, or is about to, is how the file is. -/
structure Watchful (s : TokenSystem) : Prop where
  published : s.watcher.notices = 0 → s.watcher.phase = .waiting →
    s.watcher.watch.value = s.file.holdsToken
  found : s.watcher.notices = 0 → s.watcher.phase = .looking →
    ∀ file, s.found = some file → file.holdsToken = s.file.holdsToken

theorem Orderly.step (h : s.Orderly) (e : TokenEvent) : (s.step e).Orderly := by
  -- a watcher that has found something does nothing but publish it
  have hstill : ∀ file, s.found = some file →
      s.watcher.receive = s.watcher ∧ s.watcher.wake = s.watcher ∧ s.watcher.drain = s.watcher := by
    intro file hfile
    simp [TokenWatcher.receive, TokenWatcher.wake, TokenWatcher.drain, h file hfile]
  intro file hfile
  cases e with
  | change c => exact h file hfile
  | tell paths =>
    rcases s.step_tell paths with ⟨-, hstep⟩ | ⟨-, hstep⟩
    · rw [hstep] at hfile ⊢
      exact h file hfile
    · rw [hstep] at hfile ⊢
      exact h file hfile
  | receive => simpa only [TokenSystem.step, (hstill file hfile).1] using h file hfile
  | wake => simpa only [TokenSystem.step, (hstill file hfile).2.1] using h file hfile
  | drain => simpa only [TokenSystem.step, (hstill file hfile).2.2] using h file hfile
  | look =>
    rcases s.step_look with hstep | ⟨hphase, hstep⟩
    · rw [hstep] at hfile ⊢
      exact h file hfile
    · rw [hstep]
      exact hphase
  | publish =>
    rcases s.step_publish with hstep | ⟨found, -, hstep⟩
    · rw [hstep] at hfile ⊢
      exact h file hfile
    · rw [hstep] at hfile
      exact absurd hfile (by simp)

/-- A notice takes the place of all that could be known. -/
theorem watchful_of_notices (h : s.watcher.notices ≠ 0) : s.Watchful :=
  ⟨fun hnone => absurd hnone h, fun hnone => absurd hnone h⟩

/-- A step of the watcher, or an event about another file, forgets nothing. -/
theorem Watchful.step {e : TokenEvent} (h : s.Watchful) (hs : s.Orderly)
    (he : ∀ c, e ≠ .change c) : (s.step e).Watchful := by
  cases e with
  | change c => exact absurd rfl (he c)
  | tell paths =>
    rcases s.step_tell paths with ⟨-, hstep⟩ | ⟨-, hstep⟩
    · rw [hstep]
      exact watchful_of_notices (Nat.succ_ne_zero _)
    · rwa [hstep]
  | receive =>
    rcases receive_cases s.watcher with hstep | ⟨-, hstep⟩
    · simpa only [TokenSystem.step, hstep] using h
    · simp only [TokenSystem.step, hstep]
      exact ⟨fun _ hphase => TokenWatcherPhase.noConfusion hphase,
        fun _ hphase => TokenWatcherPhase.noConfusion hphase⟩
  | wake =>
    rcases wake_cases s.watcher with hstep | ⟨-, hstep⟩
    · simpa only [TokenSystem.step, hstep] using h
    · simp only [TokenSystem.step, hstep]
      exact ⟨fun _ hphase => TokenWatcherPhase.noConfusion hphase,
        fun _ hphase => TokenWatcherPhase.noConfusion hphase⟩
  | drain =>
    rcases drain_cases s.watcher with hstep | ⟨hphase, hstep⟩ | ⟨hphase, -, hstep⟩
    · simpa only [TokenSystem.step, hstep] using h
    · simp only [TokenSystem.step, hstep]
      exact ⟨fun _ hwaiting => TokenWatcherPhase.noConfusion (hphase.symm.trans hwaiting),
        fun _ hlooking => TokenWatcherPhase.noConfusion (hphase.symm.trans hlooking)⟩
    · simp only [TokenSystem.step, hstep]
      -- the look is still to come: had there been one, the watcher would not be draining
      refine ⟨fun _ hwaiting => TokenWatcherPhase.noConfusion hwaiting, fun _ _ file hfile => ?_⟩
      exact TokenWatcherPhase.noConfusion (hphase.symm.trans (hs file hfile))
  | look =>
    rcases s.step_look with hstep | ⟨hphase, hstep⟩
    · rwa [hstep]
    · rw [hstep]
      refine ⟨h.published, fun _ _ file hfile => ?_⟩
      rw [← Option.some.inj hfile]
  | publish =>
    rcases s.step_publish with hstep | ⟨found, hfound, hstep⟩
    · rwa [hstep]
    · have hphase : s.watcher.phase = .looking := hs found hfound
      rw [hstep, look_of_looking _ hphase]
      refine ⟨fun hnotices _ => ?_, fun _ hlooking => TokenWatcherPhase.noConfusion hlooking⟩
      rw [← h.found hnotices hphase found hfound]
      exact TokenWatcher.publish_value _ _

/-! ### From the start -/

theorem start_ok {path : String} {makeDirectory : String → Bool} {file : FileContent}
    (h : start path makeDirectory file = .ok s) :
    s = { path, file, watcher := .ofFile file } := by
  simp only [start, TokenWatcher.start] at h
  split at h
  · cases h
  · cases h
  · split at h
    · exact (Except.ok.inj h).symm
    · cases h

/-- While every change is reported, a watcher that has been started is watchful. -/
theorem run_watchful {path : String} {makeDirectory : String → Bool} {file : FileContent}
    (h : start path makeDirectory file = .ok s) (events : List TokenEvent) :
    (s.run events).Orderly ∧ (Reported path events → (s.run events).Watchful) := by
  have hs := start_ok h
  have hpath : s.path = path := by rw [hs]
  induction events using List.reverseRecOn with
  | nil =>
    refine ⟨fun file hfile => ?_, fun _ => ⟨fun _ _ => ?_, fun _ hphase => ?_⟩⟩
    · simp [hs] at hfile
    · simp [hs, TokenWatcher.ofFile, Watch.new]
    · simp [hs, TokenWatcher.ofFile] at hphase
  | append_singleton events e ih =>
    obtain ⟨horderly, hwatchful⟩ := ih
    rw [run_concat]
    refine ⟨horderly.step e, fun hreported => ?_⟩
    by_cases hmended : ∃ paths, e = .tell paths ∧ Path.isAmong path paths = true
    · -- the notice of this event is as good as any report before it
      obtain ⟨paths, rfl, hamong⟩ := hmended
      rcases (s.run events).step_tell paths with ⟨-, hstep⟩ | ⟨hother, -⟩
      · rw [hstep]
        exact watchful_of_notices (Nat.succ_ne_zero _)
      · rw [run_path, hpath, hamong] at hother
        exact Bool.noConfusion hother
    · have hbefore : Reported path events := by
        refine hreported.init fun paths he => ?_
        by_contra hamong
        exact hmended ⟨paths, he, by simpa using hamong⟩
      refine (hwatchful hbefore).step horderly fun c he => ?_
      rw [he] at hreported
      exact not_reported_change hreported

/-! ### Coming to rest

A turn throws away all notices there are, so left alone the watcher has no reason for
another one.  Only if it was about to look already there may be notices from before, and
these cost it one turn more.
-/

theorem Orderly.run (h : s.Orderly) (events : List TokenEvent) : (s.run events).Orderly := by
  induction events generalizing s with
  | nil => exact h
  | cons e events ih => exact ih (h.step e)

theorem Watchful.run {events : List TokenEvent} (h : s.Watchful) (hs : s.Orderly)
    (hquiet : ∀ e ∈ events, ∀ c, e ≠ .change c) : (s.run events).Watchful := by
  induction events generalizing s with
  | nil => exact h
  | cons e events ih =>
    have hstep : (s.step e).Watchful := h.step hs (hquiet e (by simp))
    exact ih hstep (hs.step e) fun e' he' => hquiet e' (by simp [he'])

theorem run_drains (n : Nat) :
    s.run (List.replicate n .drain) = { s with watcher := s.watcher.drainAll n } := by
  induction n generalizing s with
  | zero => rfl
  | succ n ih => rw [List.replicate_succ, run_cons, ih]; rfl

theorem drainAll_of_ne {t : TokenWatcher} (h : t.phase ≠ .draining) (fuel : Nat) :
    t.drainAll fuel = t := by
  have hstill : t.drain = t := by
    rcases drain_cases t with hdrain | ⟨hphase, -⟩ | ⟨hphase, -⟩
    · exact hdrain
    · exact absurd hphase h
    · exact absurd hphase h
  induction fuel with
  | zero => rfl
  | succ fuel ih => rw [TokenWatcher.drainAll, hstill, ih]

theorem drainAll_of_draining {t : TokenWatcher} {fuel : Nat} (h : t.phase = .draining)
    (hfuel : t.notices < fuel) : t.drainAll fuel = { t with notices := 0, phase := .looking } := by
  induction fuel generalizing t with
  | zero => omega
  | succ fuel ih =>
    cases hnotices : t.notices with
    | zero =>
      have hdrain : t.drain = { t with phase := .looking } := by
        simp [TokenWatcher.drain, h, hnotices]
      rw [TokenWatcher.drainAll, hdrain, drainAll_of_ne (by simp), hnotices]
    | succ n =>
      have hdrain : t.drain = { t with notices := n } := by
        simp [TokenWatcher.drain, h, hnotices]
      have hrest : TokenWatcher.notices { t with notices := n } < fuel := by
        rw [hnotices] at hfuel
        exact Nat.lt_of_succ_lt_succ hfuel
      rw [TokenWatcher.drainAll, hdrain]
      exact ih h hrest

/-- Left alone, a watcher that is told of nothing does not even begin, one that is about to
look goes on, and any other comes to throw notices away. -/
theorem receive_wake_cases (t : TokenWatcher) :
    (t.phase = .waiting ∧ t.notices = 0 ∧ t.receive.wake = t) ∨
    (t.phase = .looking ∧ t.receive.wake = t) ∨
    (t.phase ≠ .looking ∧ t.receive.wake.phase = .draining ∧
      t.receive.wake.notices ≤ t.notices) := by
  cases hphase : t.phase with
  | waiting =>
    cases hnotices : t.notices with
    | zero =>
      exact .inl ⟨rfl, rfl, by simp [TokenWatcher.receive, TokenWatcher.wake, hphase, hnotices]⟩
    | succ n =>
      exact .inr (.inr (by simp [TokenWatcher.receive, TokenWatcher.wake, hphase, hnotices]))
  | pausing => exact .inr (.inr (by simp [TokenWatcher.receive, TokenWatcher.wake, hphase]))
  | draining => exact .inr (.inr (by simp [TokenWatcher.receive, TokenWatcher.wake, hphase]))
  | looking => exact .inr (.inl (by simp [TokenWatcher.receive, TokenWatcher.wake, hphase]))

/-- To look and to publish, with nothing in between, is to look at the file as it is. -/
theorem run_look_publish_watcher (h : s.found = none) :
    (s.run [.look, .publish]).watcher = s.watcher.look s.file := by
  by_cases hphase : s.watcher.phase = .looking
  · simp [run, step, hphase, h]
  · simp [run, step, hphase, h, TokenWatcher.look]

/-- The end of a turn, whether the watcher has found anything yet or not. -/
theorem run_look_publish (hs : s.watcher.phase = .looking) :
    (s.run [.look, .publish]).watcher.phase = .waiting ∧
    (s.run [.look, .publish]).watcher.notices = s.watcher.notices := by
  cases hfound : s.found with
  | none => simp [run, step, hs, hfound, look_of_looking, TokenWatcher.publish]
  | some file => simp [run, step, hs, hfound, look_of_looking, TokenWatcher.publish]

theorem turned_eq (s : TokenSystem) :
    s.turned =
      { s with watcher := s.watcher.receive.wake.drainAll (s.watcher.notices + 1) }.run
        [.look, .publish] := by
  have hdrained : s.run (.receive :: .wake :: List.replicate (s.watcher.notices + 1) .drain) =
      { s with watcher := s.watcher.receive.wake.drainAll (s.watcher.notices + 1) } := by
    rw [run_cons, run_cons, run_drains]
    rfl
  rw [turned, lap, run_append, hdrained]

/-- A turn of the system is a turn of its watcher. -/
theorem turned_watcher (h : s.found = none) : s.turned.watcher = s.watcher.turn s.file := by
  -- the notices are counted before the first is taken up, so there is a step to spare
  have hdrained : s.watcher.receive.wake.drainAll (s.watcher.notices + 1) =
      s.watcher.receive.wake.drainAll (s.watcher.receive.wake.notices + 1) := by
    rcases receive_wake_cases s.watcher with ⟨-, -, hstill⟩ | ⟨-, hstill⟩ | ⟨-, hdraining, hle⟩
    · rw [hstill]
    · rw [hstill]
    · rw [drainAll_of_draining hdraining (Nat.lt_succ_of_le hle),
        drainAll_of_draining hdraining (Nat.lt_succ_self _)]
  rw [turned_eq, hdrained]
  exact run_look_publish_watcher h

/-- A turn brings a watcher to rest, unless it is about to look already when the turn begins. -/
theorem turned_resting (hs : s.Orderly) (hphase : s.watcher.phase ≠ .looking) :
    s.turned.Resting := by
  rcases receive_wake_cases s.watcher with ⟨hwaiting, hnotices, hstill⟩ | ⟨hlooking, -⟩ |
    ⟨-, hdraining, hle⟩
  · have hnothing : s.found = none := by
      by_contra hfound
      obtain ⟨file, hfile⟩ := Option.ne_none_iff_exists'.mp hfound
      exact hphase (hs file hfile)
    have hdrained : s.watcher.drainAll (s.watcher.notices + 1) = s.watcher :=
      drainAll_of_ne (by simp [hwaiting]) _
    have hidle : s.run [.look, .publish] = s := by simp [step, hwaiting, hnothing]
    rw [turned_eq, hstill, hdrained, hidle]
    exact ⟨hwaiting, hnotices⟩
  · exact absurd hlooking hphase
  · rw [turned_eq, drainAll_of_draining hdraining (Nat.lt_succ_of_le hle)]
    exact run_look_publish rfl

/-- A turn of a watcher that is about to look is over when it has looked. -/
theorem turned_waiting (hphase : s.watcher.phase = .looking) :
    s.turned.watcher.phase = .waiting := by
  have hbegun : s.watcher.receive.wake = s.watcher := by
    simp [TokenWatcher.receive, TokenWatcher.wake, hphase]
  have hstill : s.watcher.receive.wake.drainAll (s.watcher.notices + 1) = s.watcher := by
    rw [hbegun, drainAll_of_ne (by simp [hphase])]
  rw [turned_eq, hstill]
  exact (run_look_publish hphase).1

/-- Two turns bring every watcher to rest. -/
theorem turned_turned_resting (hs : s.Orderly) : s.turned.turned.Resting := by
  refine turned_resting (hs.run _) ?_
  by_cases hphase : s.watcher.phase = .looking
  · simp [turned_waiting hphase]
  · simp [(turned_resting hs hphase).1]

/-- A turn is made of steps of the watcher alone. -/
theorem lap_quiet (s : TokenSystem) : ∀ e ∈ s.lap, ∀ c, e ≠ .change c := by
  intro e he c hc
  simp [lap, hc, List.mem_replicate] at he

theorem Watchful.turned (h : s.Watchful) (hs : s.Orderly) : s.turned.Watchful :=
  h.run hs (lap_quiet s)

theorem step_file {e : TokenEvent} (h : ∀ c, e ≠ .change c) : (s.step e).file = s.file := by
  cases e with
  | change c => exact absurd rfl (h c)
  | tell paths => rcases s.step_tell paths with ⟨-, hstep⟩ | ⟨-, hstep⟩ <;> rw [hstep]
  | look => rcases s.step_look with hstep | ⟨-, hstep⟩ <;> rw [hstep]
  | publish => rcases s.step_publish with hstep | ⟨file, -, hstep⟩ <;> rw [hstep]
  | _ => rfl

theorem run_file {events : List TokenEvent} (hquiet : ∀ e ∈ events, ∀ c, e ≠ .change c) :
    (s.run events).file = s.file := by
  induction events generalizing s with
  | nil => rfl
  | cons e events ih =>
    rw [run_cons, ih fun e' he' => hquiet e' (by simp [he'])]
    exact step_file (hquiet e (by simp))

theorem turned_file (s : TokenSystem) : s.turned.file = s.file := run_file (lap_quiet s)

/--
**No change of the token is lost.**  However changes of the file, the events about them and
the steps of the watcher come in each other's way: when every change has been reported and
the watcher rests, what is published is whether somebody is signed in now.  Every time
something is published it is another value than before.  And the watcher comes to rest:
left alone, it has published how things are after two turns at most.
-/
theorem nothing_lost {path : String} {makeDirectory : String → Bool} {file : FileContent}
    (h : start path makeDirectory file = .ok s) (events : List TokenEvent) :
    let now := s.run events
    (Reported path events → now.Resting → now.watcher.watch.value = now.file.holdsToken) ∧
    (∀ e, (now.step e).watcher.watch = now.watcher.watch ∨
      (now.step e).watcher.watch =
        { now.watcher.watch with
          value := !now.watcher.watch.value, version := now.watcher.watch.version + 1 }) ∧
    now.turned.turned.Resting ∧ now.turned.turned.file = now.file ∧
    (Reported path events → now.turned.turned.watcher.watch.value = now.file.holdsToken) := by
  intro now
  obtain ⟨horderly, hwatchful⟩ := run_watchful h events
  have hrest := turned_turned_resting horderly
  have hfile : now.turned.turned.file = now.file := by rw [turned_file, turned_file]
  refine ⟨fun hreported hresting => ?_, step_watch now, hrest, hfile, fun hreported => ?_⟩
  · exact (hwatchful hreported).published hresting.2 hresting.1
  · have hlater : now.turned.turned.Watchful :=
      ((hwatchful hreported).turned horderly).turned (horderly.run now.lap)
    rw [← hfile]
    exact hlater.published hrest.2 hrest.1

/-- A token is written, and the watcher hears of it. -/
theorem nothing_lost_written :
    ∃ s, start "/home/rider/token" (fun _ => true) .missing = .ok s ∧
      let events : List TokenEvent :=
        [.change (.write "secret".toUTF8), .tell ["/home/rider/token"], .receive, .wake, .drain,
          .look, .publish]
      Reported "/home/rider/token" events ∧ (s.run events).Resting ∧
        (s.run events).watcher.watch.value = (s.run events).file.holdsToken := by
  have hstart : start "/home/rider/token" (fun _ => true) .missing =
      .ok { path := "/home/rider/token", file := .missing, watcher := .ofFile .missing } := by rfl
  refine ⟨_, hstart, ?_⟩
  intro events
  have hreported : Reported "/home/rider/token" events :=
    reported_change ⟨["/home/rider/token"], by simp, by decide +kernel⟩
      (reported_of_quiet (by simp))
  have hrest : (run ⟨"/home/rider/token", .missing, .ofFile .missing, none⟩ events).Resting := by
    constructor <;> rfl
  exact ⟨hreported, hrest, (nothing_lost hstart events).1 hreported hrest⟩

end TokenSystem

end FeedPoller
