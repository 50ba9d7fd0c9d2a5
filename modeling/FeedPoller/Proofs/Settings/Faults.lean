/-
The fault that is told.

What can be wrong with settings is said here fault by fault and without an order: the backend has
faults of its own, and a feed has them by itself and beside the feeds before it.  Every fault has a
place, and faults of one place have a rank.  Settings without any fault are those that make sense,
said of all feeds at once, and of the others the validator tells the fault that comes first.

The validator walks along the feeds with a list of the keys that it has passed.  That list is
only ever asked for a key, so the induction carries that it holds the keys of the feeds before
(`Seen`), in whatever order.
-/
import FeedPoller.Settings.Validate
import Mathlib.Tactic.SplitIfs

namespace FeedPoller

/-- A text in which everything is white space, the empty text among others. -/
theorem Text.isBlank_iff {s : String} : isBlank s = true ↔ ∀ c ∈ s.toList, isBlankChar c = true :=
  List.all_eq_true

/-- Where a fault stands among those of the same place. -/
def SettingsError.rank : SettingsError → Nat
  | .healthInterval => 0
  | .timeout => 1
  | .emptyKey _ => 0
  | .duplicateKey _ => 1
  | .emptyUrl _ => 2
  | .interval _ => 3

/-- What is wrong with a feed that comes behind others. -/
inductive FeedConfig.HasFault (earlier : List FeedConfig) (f : FeedConfig) :
    SettingsError → Prop where
  | emptyKey (h : ∀ c ∈ f.key.toList, Text.isBlankChar c = true) :
      HasFault earlier f (.emptyKey f.url)
  | duplicateKey {g : FeedConfig} (hg : g ∈ earlier) (h : g.key = f.key) :
      HasFault earlier f (.duplicateKey f.key)
  | emptyUrl (h : ∀ c ∈ f.url.toList, Text.isBlankChar c = true) :
      HasFault earlier f (.emptyUrl f.key)
  | interval (h : f.intervalSeconds = 0) : HasFault earlier f (.interval f.key)

namespace Settings

/-- What is wrong with settings, by its place: the backend, and then each feed in turn. -/
inductive HasFault (s : Settings) : Nat → SettingsError → Prop where
  | healthInterval (h : s.backend.healthIntervalSeconds = 0) : HasFault s 0 .healthInterval
  | timeout (h : s.backend.timeoutSeconds = 0) : HasFault s 0 .timeout
  | feed {i : Nat} {f : FeedConfig} {e : SettingsError} (hf : s.feeds[i]? = some f)
      (h : f.HasFault (s.feeds.take i) e) : HasFault s (i + 1) e

/-- The fault before all others: no fault has an earlier place, nor a lower rank at its own. -/
def FirstFault (s : Settings) (e : SettingsError) : Prop :=
  ∃ place, s.HasFault place e ∧ ∀ other e', s.HasFault other e' →
    place < other ∨ (place = other ∧ e.rank ≤ e'.rank)

/-- Settings that make sense. -/
structure WellFormed (s : Settings) : Prop where
  healthInterval : 0 < s.backend.healthIntervalSeconds
  timeout : 0 < s.backend.timeoutSeconds
  keys : ∀ f ∈ s.feeds, ∃ c ∈ f.key.toList, Text.isBlankChar c = false
  urls : ∀ f ∈ s.feeds, ∃ c ∈ f.url.toList, Text.isBlankChar c = false
  intervals : ∀ f ∈ s.feeds, 0 < f.intervalSeconds
  distinct : s.feeds.Pairwise fun f g => f.key ≠ g.key

end Settings

/-! ### One feed -/

/-- A list of the keys of feeds, in any order. -/
def Seen (seen : List String) (earlier : List FeedConfig) : Prop :=
  ∀ key, key ∈ seen ↔ ∃ g ∈ earlier, g.key = key

theorem seen_nil : Seen [] [] := by
  intro key
  simp

theorem Seen.snoc {seen : List String} {earlier : List FeedConfig} (h : Seen seen earlier)
    (f : FeedConfig) : Seen (f.key :: seen) (earlier ++ [f]) := by
  intro key
  rw [List.mem_cons, h key]
  constructor
  · rintro (rfl | ⟨g, hg, rfl⟩)
    · exact ⟨f, by simp, rfl⟩
    · exact ⟨g, by simp [hg], rfl⟩
  · rintro ⟨g, hg, rfl⟩
    rcases List.mem_append.mp hg with hg | hg
    · exact Or.inr ⟨g, hg, rfl⟩
    · exact Or.inl (by rw [List.mem_singleton.mp hg])

namespace FeedConfig

variable {f : FeedConfig} {seen : List String} {earlier : List FeedConfig} {e : SettingsError}

theorem fault?_eq_none (hseen : Seen seen earlier) (h : f.fault? seen = none) :
    ∀ e, ¬ f.HasFault earlier e := by
  unfold fault? at h
  split_ifs at h with hkey hdouble hurl hinterval
  intro e he
  cases he with
  | emptyKey hblank => exact hkey (Text.isBlank_iff.mpr hblank)
  | duplicateKey hg hsame => exact hdouble (by simpa using (hseen f.key).mpr ⟨_, hg, hsame⟩)
  | emptyUrl hblank => exact hurl (Text.isBlank_iff.mpr hblank)
  | interval hzero => exact hinterval (by simpa using hzero)

/-- The fault that is told of a feed is one that it has, and none of its faults goes before it. -/
theorem fault?_eq_some (hseen : Seen seen earlier) (h : f.fault? seen = some e) :
    f.HasFault earlier e ∧ ∀ e', f.HasFault earlier e' → e.rank ≤ e'.rank := by
  have hlater : ∀ {e'}, f.HasFault earlier e' →
      (e'.rank = 0 → Text.isBlank f.key = true) ∧ (e'.rank = 1 → seen.contains f.key = true) ∧
        (e'.rank = 2 → Text.isBlank f.url = true) := by
    intro e' he'
    cases he' with
    | emptyKey hblank => simp [SettingsError.rank, Text.isBlank_iff.mpr hblank]
    | duplicateKey hg hsame => simp [SettingsError.rank, (hseen f.key).mpr ⟨_, hg, hsame⟩]
    | emptyUrl hblank => simp [SettingsError.rank, Text.isBlank_iff.mpr hblank]
    | interval hzero => simp [SettingsError.rank]
  unfold fault? at h
  split_ifs at h with hkey hdouble hurl hinterval
  · obtain rfl := Option.some.inj h
    exact ⟨.emptyKey (Text.isBlank_iff.mp hkey), fun e' _ => Nat.zero_le _⟩
  · obtain rfl := Option.some.inj h
    obtain ⟨g, hg, hsame⟩ := (hseen f.key).mp (by simpa using hdouble)
    refine ⟨.duplicateKey hg hsame, fun e' he' => ?_⟩
    have hzero := mt (hlater he').1 hkey
    show 1 ≤ e'.rank
    omega
  · obtain rfl := Option.some.inj h
    refine ⟨.emptyUrl (Text.isBlank_iff.mp hurl), fun e' he' => ?_⟩
    have hzero := mt (hlater he').1 hkey
    have hone := mt (hlater he').2.1 hdouble
    show 2 ≤ e'.rank
    omega
  · obtain rfl := Option.some.inj h
    refine ⟨.interval (by simpa using hinterval), fun e' he' => ?_⟩
    have hzero := mt (hlater he').1 hkey
    have hone := mt (hlater he').2.1 hdouble
    have htwo := mt (hlater he').2.2 hurl
    show 3 ≤ e'.rank
    omega

end FeedConfig

/-! ### All feeds -/

namespace Settings

variable {s : Settings} {feeds earlier : List FeedConfig} {seen : List String} {e : SettingsError}

/-- Where the walk ends without a fault, no feed has one. -/
theorem feedFault?_eq_none (hseen : Seen seen earlier) (h : feedFault? seen feeds = none) :
    ∀ (i : Nat) (f : FeedConfig), feeds[i]? = some f →
      ∀ e, ¬ f.HasFault (earlier ++ feeds.take i) e := by
  induction feeds generalizing seen earlier with
  | nil => simp
  | cons first rest ih =>
      rw [feedFault?] at h
      cases hfault : first.fault? seen with
      | some e => simp [hfault] at h
      | none =>
          rw [hfault] at h
          intro i f hf
          cases i with
          | zero =>
              obtain rfl : first = f := by simpa using hf
              simpa using FeedConfig.fault?_eq_none hseen hfault
          | succ i => simpa using ih (hseen.snoc first) h i f (by simpa using hf)

/-- Where the walk ends with a fault, the feed there has it, and the feeds before it have none. -/
theorem feedFault?_eq_some (hseen : Seen seen earlier) (h : feedFault? seen feeds = some e) :
    ∃ (i : Nat) (f : FeedConfig), feeds[i]? = some f ∧
      (f.HasFault (earlier ++ feeds.take i) e ∧
        ∀ e', f.HasFault (earlier ++ feeds.take i) e' → e.rank ≤ e'.rank) ∧
      ∀ (j : Nat) (g : FeedConfig), j < i → feeds[j]? = some g →
        ∀ e', ¬ g.HasFault (earlier ++ feeds.take j) e' := by
  induction feeds generalizing seen earlier with
  | nil => simp [feedFault?] at h
  | cons first rest ih =>
      rw [feedFault?] at h
      cases hfault : first.fault? seen with
      | some e' =>
          rw [hfault] at h
          obtain rfl : e' = e := Option.some.inj h
          exact ⟨0, first, rfl, by simpa using FeedConfig.fault?_eq_some hseen hfault, by simp⟩
      | none =>
          rw [hfault] at h
          obtain ⟨i, f, hf, hfirst, hbefore⟩ := ih (hseen.snoc first) h
          refine ⟨i + 1, f, by simpa using hf, by simpa using hfirst, fun j g hj hg => ?_⟩
          cases j with
          | zero =>
              obtain rfl : first = g := by simpa using hg
              simpa using FeedConfig.fault?_eq_none hseen hfault
          | succ j => simpa using hbefore j g (Nat.lt_of_succ_lt_succ hj) (by simpa using hg)

/-! ### All settings -/

theorem fault?_eq_none (h : s.fault? = none) : ∀ place e, ¬ s.HasFault place e := by
  unfold fault? at h
  split_ifs at h with hhealth htimeout
  intro place e he
  cases he with
  | healthInterval hzero => exact hhealth (by simpa using hzero)
  | timeout hzero => exact htimeout (by simpa using hzero)
  | feed hf hhas => exact feedFault?_eq_none seen_nil h _ _ hf _ (by simpa using hhas)

theorem fault?_eq_some (h : s.fault? = some e) : s.FirstFault e := by
  unfold fault? at h
  split_ifs at h with hhealth htimeout
  · obtain rfl := Option.some.inj h
    refine ⟨0, .healthInterval (by simpa using hhealth), fun other e' _ => ?_⟩
    exact (Nat.eq_zero_or_pos other).symm.imp id fun hzero => ⟨hzero.symm, Nat.zero_le _⟩
  · obtain rfl := Option.some.inj h
    refine ⟨0, .timeout (by simpa using htimeout), fun other e' he' => ?_⟩
    cases he' with
    | healthInterval hzero => exact absurd (by simpa using hzero) hhealth
    | timeout => exact Or.inr ⟨rfl, Nat.le_refl _⟩
    | feed => exact Or.inl (Nat.succ_pos _)
  · obtain ⟨i, f, hf, ⟨hhas, hrank⟩, hbefore⟩ := feedFault?_eq_some seen_nil h
    refine ⟨i + 1, .feed hf (by simpa using hhas), fun other e' he' => ?_⟩
    cases he' with
    | healthInterval hzero => exact absurd (by simpa using hzero) hhealth
    | timeout hzero => exact absurd (by simpa using hzero) htimeout
    | @feed j g _ hg hhas' =>
        rcases Nat.lt_trichotomy i j with hlt | rfl | hgt
        · exact Or.inl (Nat.succ_lt_succ hlt)
        · obtain rfl : f = g := Option.some.inj (hf.symm.trans hg)
          exact Or.inr ⟨rfl, hrank e' (by simpa using hhas')⟩
        · exact absurd (by simpa using hhas') (hbefore j g hgt hg e')

/-- Faults of one place and one rank are the same fault. -/
theorem HasFault.eq_of_rank {place : Nat} {e' : SettingsError} (h : s.HasFault place e)
    (h' : s.HasFault place e') (hrank : e.rank = e'.rank) : e = e' := by
  cases h with
  | healthInterval | timeout => cases h' <;> simp [SettingsError.rank] at hrank ⊢
  | feed hf hhas =>
      cases h' with
      | feed hg hhas' =>
          obtain rfl := Option.some.inj (hf.symm.trans hg)
          cases hhas <;> cases hhas' <;> simp [SettingsError.rank] at hrank ⊢

/-- There is no more than one first fault. -/
theorem FirstFault.eq {e' : SettingsError} (h : s.FirstFault e) (h' : s.FirstFault e') :
    e = e' := by
  obtain ⟨place, hhas, hfirst⟩ := h
  obtain ⟨place', hhas', hfirst'⟩ := h'
  obtain rfl : place = place' := by
    have hle := hfirst place' e' hhas'
    have hge := hfirst' place e hhas
    omega
  refine hhas.eq_of_rank hhas' ?_
  have hle := hfirst place e' hhas'
  have hge := hfirst' place e hhas
  omega

/-- Settings make sense exactly if nothing is wrong with them. -/
theorem wellFormed_iff : s.WellFormed ↔ ∀ place e, ¬ s.HasFault place e := by
  have hink : ∀ text : String, (∃ c ∈ text.toList, Text.isBlankChar c = false) ↔
      ¬ ∀ c ∈ text.toList, Text.isBlankChar c = true := by
    intro text
    simp
  constructor
  · intro h place e he
    cases he with
    | healthInterval hzero => exact Nat.ne_of_gt h.healthInterval hzero
    | timeout hzero => exact Nat.ne_of_gt h.timeout hzero
    | @feed i f e hf hhas =>
        have hmem : f ∈ s.feeds := List.mem_of_getElem? hf
        cases hhas with
        | emptyKey hblank => exact (hink f.key).mp (h.keys f hmem) hblank
        | emptyUrl hblank => exact (hink f.url).mp (h.urls f hmem) hblank
        | interval hzero => exact Nat.ne_of_gt (h.intervals f hmem) hzero
        | @duplicateKey g hg hsame =>
            obtain ⟨hi, rfl⟩ := List.getElem?_eq_some_iff.mp hf
            obtain ⟨j, hj, rfl⟩ := List.mem_take_iff_getElem.mp hg
            have hlt : j < i := Nat.lt_of_lt_of_le hj (Nat.min_le_left _ _)
            exact List.pairwise_iff_getElem.mp h.distinct j i _ hi hlt hsame
  · intro h
    have hfeed : ∀ f ∈ s.feeds, ∃ i, s.feeds[i]? = some f := fun f hf => List.getElem?_of_mem hf
    refine ⟨Nat.pos_of_ne_zero fun hzero => h 0 _ (.healthInterval hzero),
      Nat.pos_of_ne_zero fun hzero => h 0 _ (.timeout hzero), fun f hf => ?_, fun f hf => ?_,
      fun f hf => ?_, ?_⟩
    · obtain ⟨i, hi⟩ := hfeed f hf
      exact (hink f.key).mpr fun hblank => h _ _ (.feed hi (.emptyKey hblank))
    · obtain ⟨i, hi⟩ := hfeed f hf
      exact (hink f.url).mpr fun hblank => h _ _ (.feed hi (.emptyUrl hblank))
    · obtain ⟨i, hi⟩ := hfeed f hf
      exact Nat.pos_of_ne_zero fun hzero => h _ _ (.feed hi (.interval hzero))
    · refine List.pairwise_iff_getElem.mpr fun j i hj hi hlt hsame => ?_
      have hmem : s.feeds[j] ∈ s.feeds.take i :=
        List.mem_take_iff_getElem.mpr ⟨j, by omega, rfl⟩
      exact h _ _ (.feed (List.getElem?_eq_getElem hi) (.duplicateKey hmem hsame))

theorem wellFormed_of_fault? (h : s.fault? = none) : s.WellFormed :=
  wellFormed_iff.mpr (fault?_eq_none h)

/--
**The first fault is told, and only faults are.**  Settings are accepted exactly if they make sense:
the backend's intervals and those of all feeds are positive, keys and addresses are more than white
space, and no key comes twice.  Otherwise what is told is the fault before all others: one of
the backend, the health interval first, and else one of the first feed that is faulty by itself
or beside the feeds before it, by rank: a blank key, a key that was there, a blank address, no
interval.
-/
theorem validate_tells_first_fault (s : Settings) :
    (s.validate = .ok () ↔ s.WellFormed) ∧ ∀ e, s.validate = .error e ↔ s.FirstFault e := by
  unfold validate
  cases hfault : s.fault? with
  | none =>
      have hnone := fault?_eq_none hfault
      refine ⟨⟨fun _ => wellFormed_of_fault? hfault, fun _ => rfl⟩, fun e => ?_⟩
      refine ⟨fun h => absurd h (by simp), ?_⟩
      rintro ⟨place, hhas, -⟩
      exact absurd hhas (hnone place e)
  | some first =>
      have hfirst := fault?_eq_some hfault
      refine ⟨⟨fun h => absurd h (by simp), fun h => ?_⟩, fun e => ⟨fun h => ?_, fun h => ?_⟩⟩
      · obtain ⟨place, hhas, -⟩ := hfirst
        exact absurd hhas (wellFormed_iff.mp h place first)
      · obtain rfl : first = e := by simpa using h
        exact hfirst
      · rw [hfirst.eq h]

/-- The second feed has a key that was there, a blank address and no interval, the third no key. -/
example : fault? { feeds := [⟨"a", "http://h/a", 10, false, true⟩,
    ⟨"a", " ", 0, false, true⟩, ⟨"\u00a0", "http://h/b", 10, false, true⟩] } =
      some (.duplicateKey "a") := by
  decide +kernel

end Settings

end FeedPoller
