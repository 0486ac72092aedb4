import SushidaOs.Navigation.Session
import SushidaOs.Url

/-!
# SushidaOs.Navigation.Classify

`classify_url` of `sushida-navigation-watch`, and the verdict on a session file
that it leads to.

The watcher restarts the kiosk on `blocked` alone, and a file is blocked when
one of its current entries is (`assessData_blocked_iff`).
-/

namespace SushidaOs

open PyStr Url

namespace Navigation

/-- What the watcher says of a URL, and of a session file. -/
inductive Classification where
  | allowed
  | blocked
  | unknown
  deriving DecidableEq, Repr

/-- The part of `classify_url` behind `urlsplit`. -/
def classifyParts (D : UrlData) (parts : SplitResult) : Classification :=
  if parts.scheme == lit "http" || parts.scheme == lit "https" then
    match port D parts with
    | .error _ => .unknown
    | .ok port =>
        match hostname D parts with
        | none => .unknown
        | some host =>
            if parts.scheme == lit "https" then
              if host == lit "sushida.net" && (port == none || port == some 443) then .allowed
              else .blocked
            else if host == lit "127.0.0.1" && port == some 8787 then .allowed
            else .blocked
  else if parts.scheme == lit "file" then
    if (parts.netloc == [] || parts.netloc == lit "localhost") &&
        parts.path == lit "/usr/share/sushida-os/offline.html" then .allowed
    else .blocked
  else if [lit "chrome-error", lit "chrome", lit "view-source", lit "javascript",
      lit "data"].any (· == parts.scheme) then .blocked
  else if parts.scheme.isEmpty then .unknown
  else .blocked

/-- `classify_url`. -/
def classifyUrl (D : UrlData) (url : PyStr) : Classification :=
  if url.isEmpty || decide (Session.maxUrlBytes < url.length) then .unknown
  else if (lit "about:").isPrefixOf url then .unknown
  else match urlsplit D url with
    | .error _ => .unknown
    | .ok parts => classifyParts D parts

/-- The loop of `assess_sessions` over the URLs of the tabs. -/
def assessUrls (D : UrlData) (state : Classification) : List PyStr → Classification
  | [] => state
  | url :: rest =>
      match classifyUrl D url with
      | .blocked => .blocked
      | .allowed => assessUrls D .allowed rest
      | .unknown => assessUrls D state rest

/-- `assess_sessions` from the content of the newest file on. -/
def assessData (D : UrlData) (data : List UInt8) : Classification :=
  if Session.maxSessionBytes < data.length then .unknown
  else assessUrls D .unknown ((Session.currentEntries data).map Prod.snd)

/-! ## session files -/

theorem assessUrls_blocked_iff (D : UrlData) {state : Classification} (hstate : state ≠ .blocked)
    (urls : List PyStr) :
    assessUrls D state urls = .blocked ↔ ∃ url ∈ urls, classifyUrl D url = .blocked := by
  induction urls generalizing state with
  | nil => simp [assessUrls, hstate]
  | cons url rest ih =>
      rw [assessUrls, List.exists_mem_cons_iff]
      cases hurl : classifyUrl D url with
      | blocked => simp
      | allowed => simp [@ih .allowed (by decide)]
      | unknown => simp [ih hstate]

/-- A file is blocked when it is read and a tab shows a blocked URL. -/
theorem assessData_blocked_iff (D : UrlData) (data : List UInt8) :
    assessData D data = .blocked ↔ data.length ≤ Session.maxSessionBytes ∧
      ∃ entry ∈ Session.currentEntries data, classifyUrl D entry.2 = .blocked := by
  unfold assessData
  split
  · next hlong => simp [Nat.not_le.mpr hlong]
  · next hshort =>
      rw [assessUrls_blocked_iff D (by decide)]
      simp only [List.mem_map, exists_exists_and_eq_and, Nat.not_lt.mp hshort, true_and]

/-! ## URLs -/

/-- A URL whose parts are allowed is allowed unless it is too long; it starts
with another letter than `about:`. -/
theorem classifyUrl_of_allowed (D : UrlData) {url : PyStr} {parts : SplitResult}
    (hhead : url.head?.any (· != 0x61) = true) (hparts : urlsplit D url = .ok parts)
    (hallowed : classifyParts D parts = .allowed) :
    classifyUrl D url = if Session.maxUrlBytes < url.length then .unknown else .allowed := by
  cases url with
  | nil => contradiction
  | cons c cs =>
      have hc : ((0x61 : CodePoint) == c) = false := by
        apply beq_false_of_ne
        rintro rfl
        contradiction
      have habout : (lit "about:").isPrefixOf (c :: cs) = false := by
        show ((0x61 : CodePoint) == c && (lit "bout:").isPrefixOf cs) = false
        rw [hc, Bool.false_and]
      simp only [classifyUrl, List.isEmpty_cons, Bool.false_or, decide_eq_true_eq, habout, hparts,
        hallowed, Bool.false_eq_true, if_false]

/-- A host name in lower case. -/
theorem hostname_plain (D : UrlData) {parts : SplitResult} {name : PyStr}
    (hinfo : (hostinfo parts.netloc).1 = name) (hne : name.isEmpty = false)
    (hplain : name.all (fun c => c.val < 0x80 && c != 0x25 && c.asciiLower == c) = true) :
    hostname D parts = some name := by
  have hchars : ∀ c ∈ name, c.val < 0x80 ∧ c ≠ 0x25 ∧ c.asciiLower = c := by
    intro c hc
    have hplain := List.all_eq_true.mp hplain c hc
    simpa [and_assoc] using hplain
  have hmissing : partition 0x25 name = (name, false, []) :=
    partition_not_mem fun hmem => (hchars _ hmem).2.1 rfl
  have hlower : D.lower name = name := by
    rw [D.lower_ascii name fun c hc => (hchars c hc).1]
    exact (List.map_congr_left fun c hc => (hchars c hc).2.2).trans (List.map_id name)
  simp [hostname, hinfo, hne, hmissing, hlower]

theorem classifyParts_origin (D : UrlData) (rest : PyStr) :
    classifyParts D (splitTail (lit "https") (lit "sushida.net") rest) = .allowed := by
  have hhost : hostname D (splitTail (lit "https") (lit "sushida.net") rest) =
      some (lit "sushida.net") := hostname_plain D rfl (by decide) (by decide)
  have hport : port D (splitTail (lit "https") (lit "sushida.net") rest) = .ok none := rfl
  rw [classifyParts, hhost, hport]
  rfl

theorem classifyParts_setup (D : UrlData) (rest : PyStr) :
    classifyParts D (splitTail (lit "http") (lit "127.0.0.1:8787") rest) = .allowed := by
  have hhost : hostname D (splitTail (lit "http") (lit "127.0.0.1:8787") rest) =
      some (lit "127.0.0.1") := hostname_plain D rfl (by decide) (by decide)
  have hport : port D (splitTail (lit "http") (lit "127.0.0.1:8787") rest) = .ok (some 8787) := rfl
  rw [classifyParts, hhost, hport]
  rfl

/-- The origin of the game, with anything behind it that starts a path, a query
or a fragment. -/
theorem classifyUrl_origin (D : UrlData) {tail : PyStr}
    (htail : tail.head?.all isNetlocEnd = true) :
    classifyUrl D (lit "https://sushida.net" ++ tail) =
      if Session.maxUrlBytes < (lit "https://sushida.net" ++ tail).length then .unknown
      else .allowed := by
  have hscheme : isPlainScheme (lit "https") = true := by decide
  have hnetloc : isPlainNetloc (lit "sushida.net") = true := by decide
  have hcut : lit "https://sushida.net" = lit "https" ++ lit "://" ++ lit "sushida.net" := by decide
  have hparts := urlsplit_plain D hscheme hnetloc htail
  rw [← hcut] at hparts
  exact classifyUrl_of_allowed D rfl hparts (classifyParts_origin D _)

/-- The setup page. -/
theorem classifyUrl_setup (D : UrlData) :
    classifyUrl D (lit "http://127.0.0.1:8787/") = .allowed := by
  have hscheme : isPlainScheme (lit "http") = true := by decide
  have hnetloc : isPlainNetloc (lit "127.0.0.1:8787") = true := by decide
  have htail : (lit "/").head?.all isNetlocEnd = true := by decide
  have hcut : lit "http://127.0.0.1:8787/" =
      lit "http" ++ lit "://" ++ lit "127.0.0.1:8787" ++ lit "/" := by decide
  have hparts := urlsplit_plain D hscheme hnetloc htail
  rw [← hcut] at hparts
  exact classifyUrl_of_allowed D rfl hparts (classifyParts_setup D _)

/-- The packaged offline page. -/
theorem classifyUrl_offline (D : UrlData) :
    classifyUrl D (lit "file://localhost/usr/share/sushida-os/offline.html") = .allowed := by
  have hscheme : isPlainScheme (lit "file") = true := by decide
  have hnetloc : isPlainNetloc (lit "localhost") = true := by decide
  have htail : (lit "/usr/share/sushida-os/offline.html").head?.all isNetlocEnd = true := by decide
  have hcut : lit "file://localhost/usr/share/sushida-os/offline.html" =
      lit "file" ++ lit "://" ++ lit "localhost" ++ lit "/usr/share/sushida-os/offline.html" := by
    decide
  have hparts := urlsplit_plain D hscheme hnetloc htail
  rw [← hcut] at hparts
  exact classifyUrl_of_allowed D rfl hparts rfl

end Navigation

end SushidaOs
