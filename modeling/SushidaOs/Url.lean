import SushidaOs.Lines

/-!
# SushidaOs.Url

`urllib.parse.urlsplit` of CPython 3.13 with the `hostname` and `port` of its
result.

Leading control characters and blanks are stripped, and tabs and line ends are
removed anywhere, before the URL is cut at its delimiters.  A URL that starts
with a plain scheme and a plain network location keeps both, whatever follows
(`urlsplit_plain`).
-/

namespace SushidaOs

open PyStr

/-- `c` is an upper-case ASCII letter; the lower-case one, else `c`. -/
def CodePoint.asciiLower (c : CodePoint) : CodePoint :=
  if 0x41 ≤ c.val ∧ c.val ≤ 0x5a then c + 0x20 else c

/-- What `urllib.parse` uses of other modules. -/
structure UrlData extends UnicodeData where
  /-- `str.lower`. -/
  lower : PyStr → PyStr
  /-- `unicodedata.normalize("NFKC", s)`. -/
  nfkc : PyStr → PyStr
  /-- `ipaddress.ip_address(s)` is an `IPv6Address`. -/
  isIpv6 : PyStr → Bool
  lower_ascii : ∀ s : PyStr, (∀ c ∈ s, c.val < 0x80) → lower s = s.map CodePoint.asciiLower

/-- No characters beyond ASCII, and no IPv6. -/
def UrlData.ascii : UrlData where
  toUnicodeData := .ascii
  lower s := s.map CodePoint.asciiLower
  nfkc s := s
  isIpv6 _ := false
  lower_ascii _ _ := rfl

namespace Url

/-- `SplitResult`. -/
structure SplitResult where
  scheme : PyStr
  netloc : PyStr
  path : PyStr
  query : PyStr
  fragment : PyStr
  deriving DecidableEq, Repr

/-! ## characters -/

/-- `_WHATWG_C0_CONTROL_OR_SPACE`. -/
def isC0ControlOrSpace (c : CodePoint) : Bool := c.val ≤ 0x20

/-- `_UNSAFE_URL_BYTES_TO_REMOVE`. -/
def isUnsafe (c : CodePoint) : Bool := c == 0x09 || c == 0x0d || c == 0x0a

def isAlpha (c : CodePoint) : Bool :=
  (0x41 ≤ c.val && c.val ≤ 0x5a) || (0x61 ≤ c.val && c.val ≤ 0x7a)

/-- `scheme_chars`. -/
def isSchemeChar (c : CodePoint) : Bool :=
  isAlpha c || (0x30 ≤ c.val && c.val ≤ 0x39) || c == 0x2b || c == 0x2d || c == 0x2e

/-- The delimiters of `_splitnetloc`. -/
def isNetlocEnd (c : CodePoint) : Bool := c == 0x2f || c == 0x3f || c == 0x23

def isHexDigit (c : CodePoint) : Bool :=
  (0x30 ≤ c.val && c.val ≤ 0x39) || (0x41 ≤ c.val && c.val ≤ 0x46) ||
    (0x61 ≤ c.val && c.val ≤ 0x66)

/-! ## `urlsplit` -/

/-- The URL that is cut: stripped in front, without the unsafe characters. -/
def clean (url : PyStr) : PyStr :=
  (url.dropWhile isC0ControlOrSpace).filter fun c => !isUnsafe c

/-- The scheme and the rest; the scheme is empty when there is none. -/
def splitScheme (D : UrlData) (url : PyStr) : PyStr × PyStr :=
  match partition 0x3a url with
  | (head, true, rest) =>
      if head.head?.any isAlpha && head.all isSchemeChar then (D.lower head, rest) else ([], url)
  | (_, false, _) => ([], url)

/-- `_splitnetloc(url, 2)` of a URL that starts with `//`; other URLs have no
network location. -/
def splitNetloc : PyStr → PyStr × PyStr
  | 0x2f :: 0x2f :: url =>
      (url.takeWhile fun c => !isNetlocEnd c, url.dropWhile fun c => !isNetlocEnd c)
  | url => ([], url)

/-- `s.rpartition(c)[2]`. -/
def afterLast (c : CodePoint) (s : PyStr) : PyStr := (s.reverse.takeWhile (· != c)).reverse

/-- `re.match(r"\Av[a-fA-F0-9]+\..+\Z", s)` of a string that starts with `v`. -/
def isIpvFuture (s : PyStr) : Bool :=
  let digits := (s.drop 1).takeWhile isHexDigit
  let rest := (s.drop 1).dropWhile isHexDigit
  !digits.isEmpty && rest.head? == some 0x2e && !(rest.drop 1).isEmpty &&
    (rest.drop 1).all (· != 0x0a)

/-- `_check_bracketed_host` raises no `ValueError`. -/
def checkBracketedHost (D : UrlData) (hostname : PyStr) : Bool :=
  if hostname.head? == some 0x76 then isIpvFuture hostname else D.isIpv6 hostname

/-- `_check_bracketed_netloc` raises no `ValueError`. -/
def checkBracketedNetloc (D : UrlData) (netloc : PyStr) : Bool :=
  let hostnameAndPort := afterLast 0x40 netloc
  match partition 0x5b hostnameAndPort with
  | (beforeBracket, true, bracketed) =>
      let (hostname, _, port) := partition 0x5d bracketed
      beforeBracket.isEmpty && (port.isEmpty || port.head? == some 0x3a) &&
        checkBracketedHost D hostname
  | (_, false, _) => checkBracketedHost D (partition 0x3a hostnameAndPort).1

/-- The checks of the brackets raise no `ValueError`. -/
def checkBrackets (D : UrlData) (netloc : PyStr) : Bool :=
  match netloc.any (· == 0x5b), netloc.any (· == 0x5d) with
  | false, false => true
  | true, true => checkBracketedNetloc D netloc
  | _, _ => false

/-- `_checknetloc` raises no `ValueError`. -/
def checkNetloc (D : UrlData) (netloc : PyStr) : Bool :=
  if netloc.all fun c => c.val < 0x80 then true
  else
    let n := netloc.filter fun c => !(c == 0x40 || c == 0x3a || c == 0x23 || c == 0x3f)
    let netloc2 := D.nfkc n
    n == netloc2 ||
      !netloc2.any fun c => c == 0x2f || c == 0x3f || c == 0x23 || c == 0x40 || c == 0x3a

/-- The path, the query and the fragment of the rest behind the network
location. -/
def splitTail (scheme netloc url : PyStr) : SplitResult :=
  let (url, _, fragment) := partition 0x23 url
  let (path, _, query) := partition 0x3f url
  ⟨scheme, netloc, path, query, fragment⟩

/-- `urlsplit(url)`. -/
def urlsplit (D : UrlData) (url : PyStr) : Except PyExc SplitResult :=
  let (scheme, afterScheme) := splitScheme D (clean url)
  let (netloc, rest) := splitNetloc afterScheme
  if checkBrackets D netloc && checkNetloc D netloc then .ok (splitTail scheme netloc rest)
  else .error .valueError

/-! ## `hostname` and `port` -/

/-- `_hostinfo`; an empty port is `None`. -/
def hostinfo (netloc : PyStr) : PyStr × PyStr :=
  let hostinfo := afterLast 0x40 netloc
  match partition 0x5b hostinfo with
  | (_, true, bracketed) =>
      let (hostname, _, rest) := partition 0x5d bracketed
      (hostname, (partition 0x3a rest).2.2)
  | (_, false, _) =>
      let (hostname, _, port) := partition 0x3a hostinfo
      (hostname, port)

/-- `parts.hostname`; the zone of a scoped address keeps its case. -/
def hostname (D : UrlData) (parts : SplitResult) : Option PyStr :=
  let name := (hostinfo parts.netloc).1
  if name.isEmpty then none
  else
    let (address, percent, zone) := partition 0x25 name
    some (D.lower address ++ (if percent then 0x25 :: zone else []))

/-- `parts.port`. -/
def port (D : UrlData) (parts : SplitResult) : Except PyExc (Option Int) :=
  let digits := (hostinfo parts.netloc).2
  if digits.isEmpty then .ok none
  else if digits.all fun c => 0x30 ≤ c.val && c.val ≤ 0x39 then
    match toInt D.toUnicodeData digits with
    | .ok n => if 0 ≤ n ∧ n ≤ 65535 then .ok (some n) else .error .valueError
    | .error e => .error e
  else .error .valueError

/-! ## plain URLs -/

/-- A scheme in lower case. -/
def isPlainScheme (scheme : PyStr) : Bool :=
  scheme.head?.any isAlpha && scheme.all fun c => isSchemeChar c && c.asciiLower == c

/-- Printable ASCII without a delimiter or a bracket. -/
def isPlainNetloc (netloc : PyStr) : Bool :=
  netloc.all fun c => 0x20 < c.val && c.val < 0x80 && !isNetlocEnd c && c != 0x5b && c != 0x5d

/-- The characters of a scheme are printable ASCII without the colon. -/
theorem isSchemeChar_bounds {c : CodePoint} (h : isSchemeChar c = true) :
    0x20 < c.val ∧ c.val < 0x80 ∧ c ≠ 0x3a := by
  simp only [isSchemeChar, isAlpha, Bool.or_eq_true, Bool.and_eq_true, decide_eq_true_eq,
    beq_iff_eq] at h
  have hcolon : c = 0x3a ↔ c.val = 0x3a := Fin.ext_iff
  have hplus : c = 0x2b ↔ c.val = 0x2b := Fin.ext_iff
  have hminus : c = 0x2d ↔ c.val = 0x2d := Fin.ext_iff
  have hdot : c = 0x2e ↔ c.val = 0x2e := Fin.ext_iff
  rw [hplus, hminus, hdot] at h
  rw [Ne, hcolon]
  omega

theorem isUnsafe_of_lt {c : CodePoint} (h : 0x20 < c.val) : isUnsafe c = false := by
  have hne : ∀ d : CodePoint, d.val ≤ 0x20 → (c == d) = false := by
    intro d hd
    apply beq_false_of_ne
    intro heq
    rw [heq] at h
    omega
  rw [isUnsafe, hne 0x09 (by decide), hne 0x0d (by decide), hne 0x0a (by decide)]
  rfl

/-- Printable characters in front are kept. -/
theorem clean_append {front : PyStr} (hne : front ≠ []) (hfront : ∀ c ∈ front, 0x20 < c.val)
    (tail : PyStr) : clean (front ++ tail) = front ++ tail.filter (fun c => !isUnsafe c) := by
  cases front with
  | nil => contradiction
  | cons c cs =>
      have hc : isC0ControlOrSpace c = false := by
        have hlt := hfront c List.mem_cons_self
        simp only [isC0ControlOrSpace, decide_eq_false_iff_not]
        omega
      have hkeep : (c :: cs).filter (fun c => !isUnsafe c) = c :: cs := by
        rw [List.filter_eq_self]
        intro d hd
        rw [isUnsafe_of_lt (hfront d hd)]
        rfl
      rw [clean, List.cons_append, List.dropWhile_cons_of_neg (by simp [hc]), ← List.cons_append,
        List.filter_append, hkeep]

/-- A plain scheme is taken off at the colon. -/
theorem splitScheme_plain (D : UrlData) {scheme : PyStr} (h : isPlainScheme scheme = true)
    (rest : PyStr) : splitScheme D (scheme ++ 0x3a :: rest) = (scheme, rest) := by
  rw [isPlainScheme, Bool.and_eq_true, List.all_eq_true] at h
  obtain ⟨halpha, hchars⟩ := h
  have hscheme : ∀ c ∈ scheme, isSchemeChar c = true ∧ c.asciiLower = c := by
    intro c hc
    simpa using hchars c hc
  have hcut : partition 0x3a (scheme ++ 0x3a :: rest) = (scheme, true, rest) := by
    refine partition_found.mpr ⟨rfl, ?_⟩
    intro hmem
    exact (isSchemeChar_bounds (hscheme _ hmem).1).2.2 rfl
  have hall : scheme.all isSchemeChar = true :=
    List.all_eq_true.mpr fun c hc => (hscheme c hc).1
  have hlower : D.lower scheme = scheme := by
    rw [D.lower_ascii scheme fun c hc => (isSchemeChar_bounds (hscheme c hc).1).2.1]
    exact (List.map_congr_left fun c hc => (hscheme c hc).2).trans (List.map_id scheme)
  simp only [splitScheme, hcut, halpha, hall, Bool.and_self, if_true, hlower]

/-- Behind two slashes stands the host, up to a slash, a `?` or a `#`. -/
theorem splitNetloc_plain {netloc tail : PyStr} (h : ∀ c ∈ netloc, isNetlocEnd c = false)
    (htail : tail.head?.all isNetlocEnd = true) :
    splitNetloc (0x2f :: 0x2f :: (netloc ++ tail)) = (netloc, tail) := by
  have hnetloc : ∀ c ∈ netloc, (!isNetlocEnd c) = true := by
    intro c hc
    rw [h c hc]
    rfl
  rw [splitNetloc, List.takeWhile_append_of_pos hnetloc, List.dropWhile_append_of_pos hnetloc]
  cases tail with
  | nil => simp
  | cons d ds =>
      have hd : isNetlocEnd d = true := by simpa using htail
      simp [hd]

/-- The characters of a plain host are printable ASCII without brackets. -/
theorem isPlainNetloc_char {netloc : PyStr} (h : isPlainNetloc netloc = true) {c : CodePoint}
    (hc : c ∈ netloc) :
    0x20 < c.val ∧ c.val < 0x80 ∧ isNetlocEnd c = false ∧ c ≠ 0x5b ∧ c ≠ 0x5d := by
  have hplain := List.all_eq_true.mp h c hc
  simpa [and_assoc] using hplain

/-- A host without brackets passes the check of brackets. -/
theorem checkBrackets_plain (D : UrlData) {netloc : PyStr} (h : isPlainNetloc netloc = true) :
    checkBrackets D netloc = true := by
  have hopen : netloc.any (· == 0x5b) = false := by
    simpa using fun c hc => (isPlainNetloc_char h hc).2.2.2.1
  have hclose : netloc.any (· == 0x5d) = false := by
    simpa using fun c hc => (isPlainNetloc_char h hc).2.2.2.2
  rw [checkBrackets, hopen, hclose]

/-- A host of ASCII characters passes the check of normal forms. -/
theorem checkNetloc_plain (D : UrlData) {netloc : PyStr} (h : isPlainNetloc netloc = true) :
    checkNetloc D netloc = true := by
  rw [checkNetloc, if_pos]
  simpa using fun c hc => (isPlainNetloc_char h hc).2.1

/-- A delimiter in front is not removed. -/
theorem head_filter_safe {tail : PyStr} (h : tail.head?.all isNetlocEnd = true) :
    (tail.filter fun c => !isUnsafe c).head?.all isNetlocEnd = true := by
  cases tail with
  | nil => rfl
  | cons d ds =>
      have hd : isNetlocEnd d = true := by simpa using h
      have hsafe : isUnsafe d = false := by
        simp only [isNetlocEnd, Bool.or_eq_true, beq_iff_eq] at hd
        rcases hd with (rfl | rfl) | rfl <;> rfl
      simp [hsafe, hd]

/-- The scheme and the network location of a plain URL are as they are
written. -/
theorem urlsplit_plain (D : UrlData) {scheme netloc tail : PyStr}
    (hscheme : isPlainScheme scheme = true) (hnetloc : isPlainNetloc netloc = true)
    (htail : tail.head?.all isNetlocEnd = true) :
    urlsplit D (scheme ++ lit "://" ++ netloc ++ tail) =
      .ok (splitTail scheme netloc (tail.filter fun c => !isUnsafe c)) := by
  have hfront : ∀ c ∈ scheme ++ lit "://" ++ netloc, 0x20 < c.val := by
    intro c hc
    rw [List.mem_append, List.mem_append] at hc
    rcases hc with (hc | hc) | hc
    · rw [isPlainScheme, Bool.and_eq_true, List.all_eq_true] at hscheme
      have hplain := hscheme.2 c hc
      rw [Bool.and_eq_true] at hplain
      exact (isSchemeChar_bounds hplain.1).1
    · exact forall_of_all (p := fun c => 0x20 < c.val) (by decide) c hc
    · exact (isPlainNetloc_char hnetloc hc).1
  have hclean := clean_append (by simp [lit]) hfront tail
  have hcolon : scheme ++ lit "://" ++ netloc ++ tail.filter (fun c => !isUnsafe c) =
      scheme ++ 0x3a :: 0x2f :: 0x2f :: (netloc ++ tail.filter fun c => !isUnsafe c) := by
    simp [lit, CodePoint.ofChar]
  have hcut := splitNetloc_plain (fun c hc => (isPlainNetloc_char hnetloc hc).2.2.1)
    (head_filter_safe htail)
  simp only [urlsplit, hclean, hcolon, splitScheme_plain D hscheme, hcut,
    checkBrackets_plain D hnetloc, checkNetloc_plain D hnetloc, Bool.and_self, if_true]

end Url

end SushidaOs
