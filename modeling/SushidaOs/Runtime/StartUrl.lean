import SushidaOs.Config
import SushidaOs.Navigation.Classify
import SushidaOs.Shell

/-!
# SushidaOs.Runtime.StartUrl

The checks a start URL passes on its way to the browser: `url_allowed` of the
configuration, the `case` of `sushida-launch` and the `case` of
`sushida-session`.  Once the page is shown, the navigation watcher finds its
URL in Chromium's session file.

The scripts have bytes where Python has characters.  All their words are ASCII,
so a string and its bytes pass the same patterns (`Sh.lit_prefix_ofStr_iff`).
-/

namespace SushidaOs

open PyStr

namespace StartUrl

/-- `SETUP_URL`. -/
def setupUrl : PyStr := lit "http://127.0.0.1:8787/"

/-- `OFFLINE_URL`. -/
def offlineUrl : PyStr := lit "file://localhost/usr/share/sushida-os/offline.html"

/-- `https://sushida.net|https://sushida.net/|https://sushida.net/*`. -/
def originPatterns : List (List Sh.Glob) :=
  [ [.word (Sh.lit "https://sushida.net")],
    [.word (Sh.lit "https://sushida.net/")],
    [.word (Sh.lit "https://sushida.net/"), .star] ]

/-- The URL validation of `sushida-launch`. -/
def launchAccepts (url : ShStr) : Bool := Sh.caseMatches originPatterns url

/-- The URL validation of `sushida-session`. -/
def sessionAccepts (url : ShStr) : Bool :=
  Sh.caseMatches (originPatterns ++
    [ [.word (Sh.lit "file://localhost/usr/share/sushida-os/offline.html")],
      [.word (Sh.lit "http://127.0.0.1:8787/")] ]) url

/-! ## the recognisers -/

theorem ascii_origin : ∀ c ∈ lit "https://sushida.net", c.val < 0x80 := forall_of_all (by decide)

theorem ascii_originSlash : ∀ c ∈ lit "https://sushida.net/", c.val < 0x80 :=
  forall_of_all (by decide)

theorem originSlash_eq : lit "https://sushida.net/" = lit "https://sushida.net" ++ [0x2f] := by
  decide

/-- The two rules of `config.py` in one. -/
theorem urlAllowed_iff (url : PyStr) :
    Config.urlAllowed url = true ↔
      url = lit "https://sushida.net" ∨ lit "https://sushida.net/" <+: url := by
  have hslash : Config.sushidaOrigin ++ lit "/" = lit "https://sushida.net/" := rfl
  rw [Config.urlAllowed, hslash, Bool.or_eq_true, Bool.or_eq_true, beq_iff_eq, beq_iff_eq,
    List.isPrefixOf_iff_prefix]
  constructor
  · rintro ((h | h) | h)
    · exact .inl h
    · rw [h]
      exact .inr (List.prefix_refl _)
    · exact .inr h
  · rintro (h | h)
    · exact .inl (.inl h)
    · exact .inr h

/-- The two patterns of the launcher. -/
theorem launchAccepts_iff (url : ShStr) :
    launchAccepts url = true ↔
      url = Sh.lit "https://sushida.net" ∨ Sh.lit "https://sushida.net/" <+: url := by
  simp only [launchAccepts, Sh.caseMatches, originPatterns, List.any_cons, List.any_nil,
    Bool.or_eq_true, Bool.or_false, Sh.globMatches_word, Sh.globMatches_word_star]
  constructor
  · rintro (h | h | h)
    · exact .inl h
    · rw [h]
      exact .inr (List.prefix_refl _)
    · exact .inr h
  · rintro (h | h)
    · exact .inl h
    · exact .inr (.inr h)

/-- The session takes what the launcher takes, and the two local pages. -/
theorem sessionAccepts_iff (url : ShStr) :
    sessionAccepts url = true ↔ launchAccepts url = true ∨
      url = Sh.lit "http://127.0.0.1:8787/" ∨
      url = Sh.lit "file://localhost/usr/share/sushida-os/offline.html" := by
  simp only [sessionAccepts, launchAccepts, Sh.caseMatches, List.any_append, List.any_cons,
    List.any_nil, Bool.or_eq_true, Bool.or_false, Sh.globMatches_word]
  exact or_congr Iff.rfl or_comm

/-- The launcher and the configuration agree. -/
theorem launchAccepts_ofStr_iff (url : PyStr) :
    launchAccepts (Sh.ofStr url) = true ↔ Config.urlAllowed url = true := by
  rw [launchAccepts_iff, urlAllowed_iff]
  exact or_congr (Sh.ofStr_eq_lit_iff ascii_origin) (Sh.lit_prefix_ofStr_iff ascii_originSlash)

/-- Both levels say the same of a text. -/
theorem sessionAccepts_ofStr_iff (url : PyStr) :
    sessionAccepts (Sh.ofStr url) = true ↔
      Config.urlAllowed url = true ∨ url = setupUrl ∨ url = offlineUrl := by
  have hoffline : ∀ c ∈ offlineUrl, c.val < 0x80 := forall_of_all (by decide)
  have hsetup : ∀ c ∈ setupUrl, c.val < 0x80 := forall_of_all (by decide)
  rw [sessionAccepts_iff, launchAccepts_ofStr_iff]
  exact or_congr Iff.rfl (or_congr (Sh.ofStr_eq_lit_iff hsetup) (Sh.ofStr_eq_lit_iff hoffline))

/-- What the launcher reads back from `python3 -m sushida_os.config` passes,
although `$(...)` drops NULs and the line feeds at the end. -/
theorem launchAccepts_captured {url : PyStr} (h : Config.urlAllowed url = true) :
    launchAccepts (Sh.capture (Sh.printLine url)) = true := by
  rw [launchAccepts_iff]
  rw [urlAllowed_iff] at h
  rcases h with rfl | ⟨rest, rfl⟩
  · left
    decide
  · right
    have hslash : Sh.lit "https://sushida.net/" = Sh.lit "https://sushida.net" ++ [0x2f] := rfl
    have hall : (Sh.lit "https://sushida.net").all (· != 0) = true := by decide
    have hnul : ∀ b ∈ Sh.lit "https://sushida.net", b ≠ 0 := by
      intro b hb
      exact bne_iff_ne.mp (List.all_eq_true.mp hall b hb)
    rw [Sh.printLine, List.flatMap_append, Utf8.flatMap_utf8_ascii ascii_originSlash, ← Sh.lit,
      hslash, List.append_assoc, List.append_assoc, List.singleton_append,
      Sh.capture_append hnul (by decide) (by decide), List.append_cons]
    exact List.prefix_append _ _

/-! ## the watcher -/

/-- A URL of the configured origin is allowed, or too long to be classified. -/
theorem classifyUrl_of_urlAllowed (D : UrlData) {url : PyStr}
    (h : Config.urlAllowed url = true) :
    Navigation.classifyUrl D url =
      if Session.maxUrlBytes < url.length then .unknown else .allowed := by
  rw [urlAllowed_iff] at h
  obtain ⟨tail, htail, rfl⟩ : ∃ tail : PyStr, tail.head?.all Url.isNetlocEnd = true ∧
      url = lit "https://sushida.net" ++ tail := by
    rcases h with rfl | ⟨rest, rfl⟩
    · exact ⟨[], rfl, (List.append_nil _).symm⟩
    · exact ⟨0x2f :: rest, rfl, by rw [originSlash_eq, List.append_assoc, List.singleton_append]⟩
  exact Navigation.classifyUrl_origin D htail

/-- No accepted address is a blocked one. -/
theorem classifyUrl_of_sessionAccepts (D : UrlData) {url : PyStr}
    (h : sessionAccepts (Sh.ofStr url) = true) : Navigation.classifyUrl D url ≠ .blocked := by
  rw [sessionAccepts_ofStr_iff] at h
  rcases h with h | rfl | rfl
  · rw [classifyUrl_of_urlAllowed D h]
    split
    · decide
    · decide
  · rw [setupUrl, Navigation.classifyUrl_setup D]
    decide
  · rw [offlineUrl, Navigation.classifyUrl_offline D]
    decide

/-- **Start URLs**: a string is accepted everywhere or nowhere, and a session
file whose tabs show accepted URLs never restarts the kiosk. -/
theorem start_url_accepted_everywhere (D : UrlData) :
    (∀ url : PyStr, Config.urlAllowed url = true ↔ launchAccepts (Sh.ofStr url) = true) ∧
    (∀ url : PyStr, sessionAccepts (Sh.ofStr url) = true ↔
      Config.urlAllowed url = true ∨ url = setupUrl ∨ url = offlineUrl) ∧
    (∀ url : PyStr, sessionAccepts (Sh.ofStr url) = true →
      Navigation.classifyUrl D url ≠ .blocked) ∧
    (∀ data : List UInt8,
      (∀ entry ∈ Session.currentEntries data, sessionAccepts (Sh.ofStr entry.2) = true) →
      Navigation.assessData D data ≠ .blocked) := by
  refine ⟨fun url => (launchAccepts_ofStr_iff url).symm, sessionAccepts_ofStr_iff,
    fun url => classifyUrl_of_sessionAccepts D, ?_⟩
  intro data hentries hblocked
  obtain ⟨-, entry, hentry, hurl⟩ := (Navigation.assessData_blocked_iff D data).mp hblocked
  exact classifyUrl_of_sessionAccepts D (hentries entry hentry) hurl

end StartUrl

end SushidaOs
