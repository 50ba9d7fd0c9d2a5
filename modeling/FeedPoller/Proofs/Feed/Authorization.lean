/-
The session token goes where it is wanted, and nowhere else.

Whether a feed has anything to do with the token is decided when it is made from its settings: only
one for signed-in users is told where the token is, and one that is not told never looks.  So two
token files make the same request of a public feed, and no reply can tell them apart.  A feed that
is told looks before it asks.  Every way in which there may be no token ends the fetch there,
without a request, and what is sent otherwise is read off the file: the text in it without the
white space around it.  What comes of a request is then a matter of the reply alone.
-/
import FeedPoller.Proofs.Auth.Token
import FeedPoller.Proofs.Text.Trimming

namespace FeedPoller

/-! ### The token -/

/-- A file is a text that is not blank, and a token is what is left of it without the white space
at both ends. -/
def FileContent.Holds (file : FileContent) (token : String) : Prop :=
  ∃ b text, file = .bytes b ∧ String.fromUTF8? b = some text ∧ Text.isBlank text = false ∧
    Text.Trimmed text token

variable {path : String} {file other : FileContent}

/-- Which token is read from a file. -/
theorem readToken_eq_ok_iff {token : String} :
    readToken path file = .ok token ↔ file.Holds token := by
  constructor
  · intro hread
    obtain ⟨b, text, rfl, htext, hblank⟩ := readToken_ok_iff.mp ⟨token, hread⟩
    refine ⟨b, text, rfl, htext, hblank, Text.trimmed_iff.mpr ?_⟩
    simpa [readToken, FileContent.read, htext, Text.isEmpty_trim, hblank] using hread
  · rintro ⟨b, text, rfl, htext, hblank, htrim⟩
    obtain rfl := Text.trimmed_iff.mp htrim
    have hsome : (Text.trim text).isEmpty = false := by rw [Text.isEmpty_trim, hblank]
    simp only [readToken, FileContent.read, htext, hsome, Bool.false_eq_true, if_false]

/-! ### The request -/

/-- A request can be written down if its address can be read and its token fits in its head. -/
theorem Http.Request.make_eq_ok_iff {url : String} {bearer : Option String} {r : Http.Request} :
    Http.Request.make url bearer = .ok r ↔
      Url.read url = .ok r.url ∧ r.bearer = bearer ∧
        ∀ token ∈ bearer, Http.fitsInHead token = true := by
  unfold Http.Request.make
  cases hurl : Url.read url with
  | error e => simp
  | ok address =>
      by_cases hfits : bearer.all Http.fitsInHead = true
      · have hall : ∀ token ∈ bearer, Http.fitsInHead token = true := by
          simpa [Option.all_eq_true] using hfits
        simp only [hfits, if_true, Except.ok.injEq]
        constructor
        · rintro rfl
          exact ⟨rfl, rfl, hall⟩
        · rintro ⟨rfl, rfl, -⟩
          rfl
      · simp only [hfits]
        refine ⟨fun h => absurd h (by simp), ?_⟩
        rintro ⟨-, -, hall⟩
        exact absurd (by simpa [Option.all_eq_true] using hall) hfits

namespace HttpFeed

variable {feed : HttpFeed} {link link' : Http.Link}

theorem request_eq_ok_iff {r : Http.Request} :
    feed.request file = .ok r ↔
      ∃ bearer, feed.bearer file = .ok bearer ∧ Http.Request.make feed.url bearer = .ok r := by
  unfold request
  cases feed.bearer file with
  | error e => simp
  | ok bearer => cases hmake : Http.Request.make feed.url bearer <;> simp [hmake]

/-- A feed that is not told where the token is never looks at it. -/
theorem bearer_of_untold (h : feed.tokenPath = none) (file : FileContent) :
    feed.bearer file = .ok none := by
  simp [bearer, h]

theorem request_of_untold (h : feed.tokenPath = none) (file other : FileContent) :
    feed.request file = feed.request other := by
  unfold request
  rw [bearer_of_untold h, bearer_of_untold h]

theorem tokenPath_ofConfig_of_public {f : FeedConfig} (h : f.requiresAuth = false)
    (tokenPath : Option String) : (ofConfig f tokenPath).tokenPath = none := by
  simp [ofConfig, h]

/-- The request of a feed that is not told where the token is. -/
theorem request_eq_ok_iff_of_untold (h : feed.tokenPath = none) {r : Http.Request} :
    feed.request file = .ok r ↔ Url.read feed.url = .ok r.url ∧ r.bearer = none := by
  simp [request_eq_ok_iff, bearer_of_untold h, Http.Request.make_eq_ok_iff]

/-- The request of a feed for signed-in users. -/
theorem request_eq_ok_iff_of_members {f : FeedConfig} (h : f.requiresAuth = true)
    {r : Http.Request} :
    (ofConfig f (some path)).request file = .ok r ↔
      Url.read f.url = .ok r.url ∧
        ∃ token, file.Holds token ∧ Http.fitsInHead token = true ∧ r.bearer = some token := by
  rw [request_eq_ok_iff, bearer_ofConfig h]
  constructor
  · rintro ⟨bearer, hbearer, hmake⟩
    obtain ⟨hurl, hr, hfits⟩ := Http.Request.make_eq_ok_iff.mp hmake
    cases hread : readToken path file with
    | error e =>
        rw [hread] at hbearer
        exact absurd hbearer (by simp [Except.map])
    | ok token =>
        rw [hread] at hbearer
        obtain rfl : some token = bearer := by simpa [Except.map] using hbearer
        exact ⟨hurl, token, readToken_eq_ok_iff.mp hread, hfits token rfl, hr⟩
  · rintro ⟨hurl, token, hholds, hfits, hr⟩
    refine ⟨some token, by rw [readToken_eq_ok_iff.mpr hholds]; rfl, ?_⟩
    refine Http.Request.make_eq_ok_iff.mpr ⟨hurl, hr, fun other hother => ?_⟩
    obtain rfl : token = other := by simpa using hother
    exact hfits

/-- From a file without a token no feed for signed-in users gets one. -/
theorem bearer_of_no_token {f : FeedConfig} (h : f.requiresAuth = true) (path : String)
    (hno : ¬ ∃ token, file.Holds token) :
    ∃ e, (ofConfig f (some path)).bearer file = .error e := by
  rw [bearer_ofConfig h]
  cases hread : readToken path file with
  | error e => exact ⟨e, rfl⟩
  | ok token => exact absurd ⟨token, readToken_eq_ok_iff.mp hread⟩ hno

/-! ### The fetch -/

/-- Nothing but the reply to its own request makes a difference to a fetch. -/
theorem fetch_congr (hsame : feed.request file = feed.request other)
    (hlink : ∀ r, feed.request file = .ok r → link r = link' r) :
    feed.fetch link file = feed.fetch link' other := by
  unfold fetch
  rw [← hsame]
  cases hreq : feed.request file with
  | error e => rfl
  | ok r => simp only [hlink r hreq]

theorem receive_eq_ok_iff {reply : Http.Reply} {v : Json.Value} :
    feed.receive reply = .ok v ↔
      ∃ status body text, reply = .response status (some body) ∧ 200 ≤ status ∧ status < 300 ∧
        String.fromUTF8? body = some text ∧ Json.Value.read text = some v := by
  cases reply with
  | failed causes => simp [receive]
  | response status body =>
      by_cases hstatus : Http.isSuccess status = true
      · have hrange : 200 ≤ status ∧ status < 300 := by simpa [Http.isSuccess] using hstatus
        cases hread : (body.bind String.fromUTF8?).bind Json.Value.read with
        | none =>
            simp only [receive, hstatus, if_true, hread]
            refine ⟨fun h => absurd h (by simp), ?_⟩
            rintro ⟨_, b, text, heq, -, -, htext, hvalue⟩
            cases heq
            simp [htext, hvalue] at hread
        | some w =>
            simp only [receive, hstatus, if_true, hread, Except.ok.injEq]
            obtain ⟨text, htext, hvalue⟩ := Option.bind_eq_some_iff.mp hread
            obtain ⟨b, rfl, hutf⟩ := Option.bind_eq_some_iff.mp htext
            constructor
            · rintro rfl
              exact ⟨status, b, text, rfl, hrange.1, hrange.2, hutf, hvalue⟩
            · rintro ⟨_, b', text', heq, -, -, hutf', hvalue'⟩
              cases heq
              rw [hutf] at hutf'
              cases hutf'
              exact Option.some.inj (hvalue.symm.trans hvalue')
      · simp only [receive, hstatus]
        refine ⟨fun h => absurd h (by simp), ?_⟩
        rintro ⟨_, b, text, heq, hlow, hhigh, -⟩
        cases heq
        exact absurd (by simp [Http.isSuccess, hlow, hhigh]) hstatus

theorem fetch_eq_ok_iff {v : Json.Value} :
    feed.fetch link file = .ok v ↔
      ∃ r, feed.request file = .ok r ∧ feed.receive (link r) = .ok v := by
  unfold fetch
  cases feed.request file <;> simp

/--
**The token goes only where it is wanted.**  A public feed makes the same request whatever is in the
token's file, one without a token, and fetches the same with the same reply.  A feed for
signed-in users makes a request only if the file is a text that is not blank, and the token that
goes with it is that text without the white space at its ends; otherwise the fetch fails
for want of a token, over any link, since nothing is sent.  Either way a fetch without a request
fails over any link, and one with a request brings data exactly if the reply has a status between
200 and 299 and a body that is a JSON text.
-/
theorem token_only_where_wanted (f : FeedConfig) :
    (f.requiresAuth = false → ∀ tokenPath file,
      (∀ r, (ofConfig f tokenPath).request file = .ok r ↔
        Url.read f.url = .ok r.url ∧ r.bearer = none) ∧
      ∀ other, (ofConfig f tokenPath).request file = (ofConfig f tokenPath).request other ∧
        ∀ link link' : Http.Link,
          (∀ r, (ofConfig f tokenPath).request file = .ok r → link r = link' r) →
            (ofConfig f tokenPath).fetch link file = (ofConfig f tokenPath).fetch link' other) ∧
    (f.requiresAuth = true → ∀ path file,
      (∀ r, (ofConfig f (some path)).request file = .ok r ↔
        Url.read f.url = .ok r.url ∧
          ∃ token, file.Holds token ∧ Http.fitsInHead token = true ∧ r.bearer = some token) ∧
      ((¬ ∃ token, file.Holds token) →
        ∃ e, (ofConfig f (some path)).request file = .error (.token e) ∧
          ∀ link, (ofConfig f (some path)).fetch link file = .error (.token e))) ∧
    (∀ tokenPath file link,
      (∀ e, (ofConfig f tokenPath).request file = .error e →
        (ofConfig f tokenPath).fetch link file = .error e) ∧
      ∀ v, (ofConfig f tokenPath).fetch link file = .ok v ↔
        ∃ r status body text, (ofConfig f tokenPath).request file = .ok r ∧
          link r = .response status (some body) ∧ 200 ≤ status ∧ status < 300 ∧
          String.fromUTF8? body = some text ∧ Json.Value.read text = some v) := by
  refine ⟨fun hpublic tokenPath file => ⟨fun r => ?_, fun other => ?_⟩,
    fun hmembers path file => ⟨fun r => request_eq_ok_iff_of_members hmembers, fun hno => ?_⟩,
    fun tokenPath file link => ⟨fun e he => ?_, fun v => ?_⟩⟩
  · exact request_eq_ok_iff_of_untold (tokenPath_ofConfig_of_public hpublic tokenPath)
  · have hsame := request_of_untold (tokenPath_ofConfig_of_public hpublic tokenPath) file other
    exact ⟨hsame, fun link link' => fetch_congr hsame⟩
  · obtain ⟨e, hbearer⟩ := bearer_of_no_token hmembers path hno
    have hfails := fails_of_bearer hbearer
    exact ⟨e, hfails.request, hfails.fetch⟩
  · simp [fetch, he]
  · rw [fetch_eq_ok_iff]
    simp only [receive_eq_ok_iff, exists_and_left]

theorem token_only_where_wanted_members :
    members.requiresAuth = true ∧
    ∃ r,
      (ofConfig members (some "session-token")).request (.bytes "  secret token\n".toUTF8) = .ok r ∧
      r.bearer = some "secret token" := by
  have hmembers : members.requiresAuth = true := rfl
  have hholds : (FileContent.bytes "  secret token\n".toUTF8).Holds "secret token" :=
    ⟨_, "  secret token\n", rfl, by decide +kernel, by decide +kernel,
      Text.trimmed_iff.mpr (by decide +kernel)⟩
  have hread : (Url.read members.url).isOk = true := by decide +kernel
  cases hurl : Url.read members.url with
  | error e => simp [hurl, Except.isOk, Except.toBool] at hread
  | ok url =>
      have hrequest := ((token_only_where_wanted members).2.1 hmembers "session-token"
        (.bytes "  secret token\n".toUTF8)).1 { url, bearer := some "secret token" }
      exact ⟨hmembers, _, hrequest.mpr ⟨hurl, _, hholds, by decide +kernel, rfl⟩, rfl⟩

end HttpFeed

end FeedPoller
