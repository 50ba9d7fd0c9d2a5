/-
Signed in, and with a token.

Two questions are asked about one file: whether somebody is signed in, which its size
answers, and what the token is, for which it has to be read.  The answers agree on every
file but the hollow ones, which are not empty and yet hold nothing to send along: what is
in them is no text, or is nothing but white space.  Each of the two has a reason of its own
for which there is no token.  Reading alone decides it, so every proof goes by what
`FileContent.read` makes of the file.
-/
import FeedPoller.Auth.Watcher
import FeedPoller.Feed.Http
import Mathlib.Data.List.TakeWhile

namespace FeedPoller

/-! ### White space -/

namespace Text

theorem trimChars_eq_nil_iff {cs : List Char} :
    trimChars cs = [] ↔ ∀ c ∈ cs, isBlankChar c = true := by
  unfold trimChars
  rw [List.reverse_eq_nil_iff, List.dropWhile_eq_nil_iff]
  simp only [List.mem_reverse]
  constructor
  · -- what is dropped at the front is white space already
    intro hrest c hc
    rw [← List.takeWhile_append_dropWhile (p := isBlankChar) (l := cs), List.mem_append] at hc
    rcases hc with hc | hc
    · exact List.mem_takeWhile_imp hc
    · exact hrest c hc
  · intro hall c hc
    exact hall c (List.dropWhile_subset _ hc)

/-- Nothing is left of a text without its white space if and only if it is blank. -/
theorem isEmpty_trim (s : String) : (trim s).isEmpty = isBlank s := by
  rw [Bool.eq_iff_iff, String.isEmpty_iff, trim, String.ofList_eq_empty_iff,
    trimChars_eq_nil_iff, isBlank, List.all_eq_true]

end Text

/-! ### What a file holds -/

namespace FileContent

variable {file : FileContent}

/-- A file that is not empty, and of which no token can be made. -/
def Hollow (file : FileContent) : Prop :=
  ∃ b, file = .bytes b ∧ b.size ≠ 0 ∧
    ∀ text, String.fromUTF8? b = some text → Text.isBlank text = true

/-- A file whose bytes are not a text. -/
def NotText (file : FileContent) : Prop :=
  ∃ b, file = .bytes b ∧ String.fromUTF8? b = none

/-- A file that is not empty, and whose text is nothing but white space. -/
def BlankText (file : FileContent) : Prop :=
  ∃ b text, file = .bytes b ∧ b.size ≠ 0 ∧ String.fromUTF8? b = some text ∧
    Text.isBlank text = true

/-- A file is hollow for one of two reasons. -/
theorem hollow_iff : file.Hollow ↔ file.NotText ∨ file.BlankText := by
  constructor
  · rintro ⟨b, rfl, hsize, hblank⟩
    cases htext : String.fromUTF8? b with
    | none => exact Or.inl ⟨b, rfl, htext⟩
    | some text => exact Or.inr ⟨b, text, rfl, hsize, htext, hblank text htext⟩
  · rintro (⟨b, rfl, hnone⟩ | ⟨b, text, rfl, hsize, htext, hblank⟩)
    · refine ⟨b, rfl, fun hsize => ?_, fun text htext => ?_⟩
      · -- no bytes at all are a text
        have hempty : String.fromUTF8? ByteArray.empty = some "" := by rfl
        rw [ByteArray.size_eq_zero_iff.mp hsize, hempty] at hnone
        exact absurd hnone (by simp)
      · rw [hnone] at htext
        exact absurd htext (by simp)
    · refine ⟨b, rfl, hsize, fun other hother => ?_⟩
      rw [htext] at hother
      exact Option.some.inj hother ▸ hblank

theorem holdsToken_iff : file.holdsToken = true ↔ ∃ b, file = .bytes b ∧ b.size ≠ 0 := by
  cases file <;> simp [holdsToken]

theorem Hollow.holdsToken (h : file.Hollow) : file.holdsToken = true := by
  obtain ⟨b, hb, hsize, -⟩ := h
  exact holdsToken_iff.mpr ⟨b, hb, hsize⟩

end FileContent

/-! ### What reading makes of it -/

section

variable {path : String} {file : FileContent}

/-- A token comes of a text that is not blank, and of nothing else. -/
theorem readToken_ok_iff :
    (∃ token, readToken path file = .ok token) ↔
      ∃ b text, file = .bytes b ∧ String.fromUTF8? b = some text ∧ Text.isBlank text = false := by
  cases file with
  | missing => simp [readToken, FileContent.read]
  | directory => simp [readToken, FileContent.read]
  | bytes b =>
    cases htext : String.fromUTF8? b with
    | none => simp [readToken, FileContent.read, htext]
    | some text =>
      by_cases hblank : Text.isBlank text = true
      · simp [readToken, FileContent.read, htext, Text.isEmpty_trim, hblank]
      · simp [readToken, FileContent.read, htext, Text.isEmpty_trim, hblank]

/-- Of an empty file no token comes. -/
theorem holdsToken_of_readToken {token : String} (h : readToken path file = .ok token) :
    file.holdsToken = true := by
  obtain ⟨b, text, rfl, htext, hblank⟩ := readToken_ok_iff.mp ⟨token, h⟩
  refine FileContent.holdsToken_iff.mpr ⟨b, rfl, ?_⟩
  intro hsize
  have hb : b = ByteArray.empty := ByteArray.size_eq_zero_iff.mp hsize
  have hempty : String.fromUTF8? ByteArray.empty = some "" := by rfl
  rw [hb, hempty] at htext
  have hnothing : text = "" := (Option.some.inj htext).symm
  rw [hnothing] at hblank
  simp [Text.isBlank] at hblank

/-- A file that is not empty gives a token, unless it is hollow. -/
theorem readToken_ok_iff_not_hollow (h : file.holdsToken = true) :
    (∃ token, readToken path file = .ok token) ↔ ¬ file.Hollow := by
  obtain ⟨b, rfl, hsize⟩ := FileContent.holdsToken_iff.mp h
  rw [readToken_ok_iff]
  constructor
  · rintro ⟨b', text, hb, htext, hblank⟩ ⟨b'', hb', -, hhollow⟩
    cases hb
    cases hb'
    rw [hhollow text htext] at hblank
    exact Bool.noConfusion hblank
  · intro hsolid
    by_contra hnone
    refine hsolid ⟨b, rfl, hsize, fun text htext => ?_⟩
    by_contra hblank
    exact hnone ⟨b, text, rfl, htext, Bool.eq_false_iff.mpr hblank⟩

theorem FileContent.NotText.readToken (h : file.NotText) :
    readToken path file = .error (.unreadable path .notText) := by
  obtain ⟨b, rfl, hnone⟩ := h
  simp [FeedPoller.readToken, FileContent.read, hnone]

theorem FileContent.BlankText.readToken (h : file.BlankText) :
    readToken path file = .error (.empty path) := by
  obtain ⟨b, text, rfl, -, htext, hblank⟩ := h
  have htrim : (Text.trim text).isEmpty = true := by
    rw [Text.isEmpty_trim, hblank]
  simp [FeedPoller.readToken, FileContent.read, htext, htrim]

end

/-! ### The gate and the feed -/

/-- What is published behind a look is whether somebody is signed in. -/
theorem TokenWatcher.publish_value (t : TokenWatcher) (file : FileContent) :
    (t.publish file).1.watch.value = file.holdsToken := by
  simp only [TokenWatcher.publish, Watch.publish]
  by_cases hvalue : (t.watch.value == file.holdsToken) = true
  · rw [if_pos hvalue]
    exact beq_iff_eq.mp hvalue
  · rw [if_neg hvalue]

namespace HttpFeed

variable {f : FeedConfig} {path : String} {file : FileContent}

/-- A feed for signed-in users sends along what is read from the token's file. -/
theorem bearer_ofConfig (h : f.requiresAuth = true) :
    (ofConfig f (some path)).bearer file = (readToken path file).map some := by
  simp [ofConfig, bearer, h]

theorem bearer_ok_iff (h : f.requiresAuth = true) :
    (∃ token, (ofConfig f (some path)).bearer file = .ok (some token)) ↔
      ∃ token, readToken path file = .ok token := by
  rw [bearer_ofConfig h]
  cases readToken path file <;> simp [Except.map]

/-- There is no token to send along, so nothing is asked for over any link, and the store is told
why. -/
structure Fails (feed : HttpFeed) (file : FileContent) (e : TokenError) (causes : List String) :
    Prop where
  bearer : feed.bearer file = .error e
  request : feed.request file = .error (.token e)
  fetch : ∀ link, feed.fetch link file = .error (.token e)
  outcome : ∀ link, feed.outcome link file = .failed causes

theorem fails_of_bearer {feed : HttpFeed} {e : TokenError} (h : feed.bearer file = .error e) :
    feed.Fails file e e.causes := by
  have hrequest : feed.request file = .error (.token e) := by
    simp [HttpFeed.request, h]
  have hfetch : ∀ link, feed.fetch link file = .error (.token e) := by
    intro link
    simp [HttpFeed.fetch, hrequest]
  refine ⟨h, hrequest, hfetch, fun link => ?_⟩
  unfold HttpFeed.outcome
  rw [hfetch link]
  rfl

/-- What keeps a file from giving a token keeps a feed for signed-in users from being fetched. -/
theorem fails_of_readToken (h : f.requiresAuth = true) {e : TokenError}
    (hread : readToken path file = .error e) : (ofConfig f (some path)).Fails file e e.causes := by
  refine fails_of_bearer ?_
  rw [bearer_ofConfig h, hread]
  rfl

/--
**The gate and the feed agree on every file but a hollow one.**  Whatever was published
before, what is published behind a look at the token's file is that somebody is signed in
if and only if a feed for signed-in users gets its token from it, as long as the file is
not hollow.  It is hollow exactly if the gate is open and the feed gets no token, which has two
reasons.  If the file is no text the fetch ends with the failure to read it, and if it is blank,
with the token being empty; nothing is sent in either case.  Behind a closed gate there is never
a token.
-/
theorem signedIn_iff_bearer (h : f.requiresAuth = true) (t : TokenWatcher) :
    let feed := ofConfig f (some path)
    (file.holdsToken = (t.publish file).1.watch.value) ∧
    (¬ file.Hollow → (file.holdsToken = true ↔ ∃ token, feed.bearer file = .ok (some token))) ∧
    (file.Hollow ↔ file.holdsToken = true ∧ ∃ e, feed.bearer file = .error e) ∧
    (file.Hollow ↔ file.NotText ∨ file.BlankText) ∧
    (file.NotText → feed.Fails file (.unreadable path .notText)
      ["Failed to read session token from " ++ path, "stream did not contain valid UTF-8"]) ∧
    (file.BlankText → feed.Fails file (.empty path)
      ["Session token at " ++ path ++ " is empty"]) ∧
    (file.holdsToken = false → ¬ ∃ token, feed.bearer file = .ok (some token)) := by
  intro feed
  have hnotText : file.NotText → feed.Fails file (.unreadable path .notText)
      ["Failed to read session token from " ++ path, "stream did not contain valid UTF-8"] :=
    fun hnone => fails_of_readToken h hnone.readToken
  have hblankText : file.BlankText → feed.Fails file (.empty path)
      ["Session token at " ++ path ++ " is empty"] :=
    fun hblank => fails_of_readToken h hblank.readToken
  refine ⟨(t.publish_value file).symm, ?_, ⟨?_, ?_⟩, FileContent.hollow_iff, hnotText,
    hblankText, ?_⟩
  · intro hsolid
    rw [bearer_ok_iff h]
    constructor
    · intro hpresent
      exact (readToken_ok_iff_not_hollow hpresent).mpr hsolid
    · rintro ⟨token, htoken⟩
      exact holdsToken_of_readToken htoken
  · intro hhollow
    refine ⟨hhollow.holdsToken, ?_⟩
    rcases FileContent.hollow_iff.mp hhollow with hnone | hblank
    · exact ⟨_, (hnotText hnone).bearer⟩
    · exact ⟨_, (hblankText hblank).bearer⟩
  · rintro ⟨hpresent, e, hbearer⟩
    by_contra hsolid
    have hread : ∃ token, readToken path file = .ok token :=
      (readToken_ok_iff_not_hollow hpresent).mpr hsolid
    obtain ⟨token, htoken⟩ := (bearer_ok_iff h).mpr hread
    rw [hbearer] at htoken
    exact absurd htoken (by simp)
  · intro habsent htoken
    obtain ⟨token, hread⟩ := (bearer_ok_iff h).mp htoken
    rw [holdsToken_of_readToken hread] at habsent
    exact Bool.noConfusion habsent

/-- A feed for signed-in users. -/
def members : FeedConfig :=
  { key := "admin-users", url := "https://transit.example/api/admin/users", intervalSeconds := 60,
    requiresAuth := true }

theorem signedIn_iff_bearer_members :
    members.requiresAuth = true ∧
    ((FileContent.bytes "secret\n".toUTF8).holdsToken = true ↔
      ∃ token, (ofConfig members (some "session-token")).bearer (.bytes "secret\n".toUTF8) =
        .ok (some token)) ∧
    (ofConfig members (some "session-token")).Fails (.bytes ⟨#[0xFF]⟩)
      (.unreadable "session-token" .notText)
      ["Failed to read session token from session-token", "stream did not contain valid UTF-8"] ∧
    (ofConfig members (some "session-token")).Fails (.bytes "\n".toUTF8) (.empty "session-token")
      ["Session token at session-token is empty"] := by
  have hauth : members.requiresAuth = true := rfl
  have hsolid : ¬ (FileContent.bytes "secret\n".toUTF8).Hollow := by
    rintro ⟨b, hb, -, hblank⟩
    cases hb
    have htext : Text.isBlank "secret\n" = true := hblank _ (by decide +kernel)
    exact absurd htext (by decide)
  have hnotText : (FileContent.bytes ⟨#[0xFF]⟩).NotText := ⟨_, rfl, by decide +kernel⟩
  have hblank : (FileContent.bytes "\n".toUTF8).BlankText :=
    ⟨_, "\n", rfl, by decide +kernel, by decide +kernel, by decide +kernel⟩
  have hall (file : FileContent) :=
    @signedIn_iff_bearer members "session-token" file hauth (.ofFile .missing)
  obtain ⟨-, hagree, -⟩ := hall (.bytes "secret\n".toUTF8)
  obtain ⟨-, -, -, -, hfails, -⟩ := hall (.bytes ⟨#[0xFF]⟩)
  obtain ⟨-, -, -, -, -, hempty, -⟩ := hall (.bytes "\n".toUTF8)
  exact ⟨hauth, hagree hsolid, hfails hnotText, hempty hblank⟩

/-- A line break alone opens the gate and is no token. -/
theorem newline_signedIn_without_bearer :
    (FileContent.bytes "\n".toUTF8).holdsToken = true ∧
    ¬ ∃ token, (ofConfig members (some "session-token")).bearer (.bytes "\n".toUTF8) =
      .ok (some token) := by
  have hpresent : (FileContent.bytes "\n".toUTF8).holdsToken = true := by decide +kernel
  refine ⟨hpresent, ?_⟩
  rw [bearer_ok_iff rfl, readToken_ok_iff_not_hollow hpresent, not_not]
  refine ⟨_, rfl, by decide +kernel, ?_⟩
  intro text htext
  have hnewline : String.fromUTF8? "\n".toUTF8 = some "\n" := by decide +kernel
  rw [hnewline] at htext
  cases htext
  decide

end HttpFeed

end FeedPoller
