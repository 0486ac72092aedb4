import SushidaOs.Subst

/-!
# SushidaOs.Diagnostics

The report of `sushida-diagnostics` and its redaction: what a command prints goes
through `redact_stream`, and so does the whole report once more.  `redact_stream` is
`sed -E` with five rules, one line at a time.

* `redact_hides`: the value behind a keyword does not change the line that comes out;
* `report_hides`: nor the report;
* `report_clean`: no MAC address and no UUID is left in the report.

A line is a sequence of the characters of the locale and of bytes that do not decode;
no set of a pattern has such a byte.  What the redaction misses is left out of `Same`: a
keyword in a case that the locale does not pair, a value from such a byte on, and a
`credential` whose first letter is the last digit of an address.
-/

namespace SushidaOs.Diagnostics

open Ere

inductive Item where
  | char (c : Char)
  | byte (b : UInt8)
  deriving DecidableEq, Repr

abbrev Line := List Item

/-- A check of the members one by one. -/
theorem forall_of_all {α : Type} {p : α → Prop} [DecidablePred p] {l : List α}
    (h : l.all (fun a => decide (p a)) = true) : ∀ a ∈ l, p a :=
  fun a ha => of_decide_eq_true (List.all_eq_true.mp h a ha)

def text (s : String) : Line := s.toList.map .char

def letters : List Char := "abcdefghijklmnopqrstuvwxyz".toList

/-- A keyword of a pattern. -/
def Letters (s : String) : Prop := ∀ c ∈ s.toList, c ∈ letters

instance Letters.decidable (s : String) : Decidable (Letters s) :=
  decidable_of_iff (s.toList.all (fun c => decide (c ∈ letters)) = true)
    (by simp [Letters, List.all_eq_true])

/-- The white space of ASCII. -/
def asciiSpace (c : Char) : Bool := c == ' ' || (9 ≤ c.toNat && c.toNat ≤ 13)

/-- The classes of the locale: `[[:space:]]`, and which characters are one for the flag
`I`.  Two ASCII characters are one only as the two cases of a letter; that they always
are is not assumed, since in a Turkish locale `i` and `I` are two. -/
structure Locale where
  space : Char → Bool
  upper : Char → Char
  space_ascii : ∀ c, c.toNat < 128 → space c = asciiSpace c
  upper_ascii : ∀ c d, c.toNat < 128 → d.toNat < 128 → upper c = upper d → c.toUpper = d.toUpper
  upper_space : ∀ c d, space c = true → upper c = upper d → c = d

/-- `toUpper` changes the small letters only, each into the letter 32 below it. -/
theorem toUpper_cases (c : Char) : c.toUpper = c ∨
    97 ≤ c.toNat ∧ c.toNat ≤ 122 ∧ c.toUpper.toNat = c.toNat - 32 := by
  by_cases hlow : 'a'.val ≤ c.val ∧ c.val ≤ 'z'.val
  · right
    have hge : 97 ≤ c.val.toNat := UInt32.le_iff_toNat_le.mp hlow.1
    have hle : c.val.toNat ≤ 122 := UInt32.le_iff_toNat_le.mp hlow.2
    have hupper : c.toUpper = _ := dif_pos hlow
    have hshift : ('A'.val - 'a'.val).toNat = 2 ^ 32 - 32 := by decide
    refine ⟨hge, hle, ?_⟩
    rw [hupper]
    change (c.val + ('A'.val - 'a'.val)).toNat = c.val.toNat - 32
    rw [UInt32.toNat_add, hshift]
    omega
  · exact .inl (dif_neg hlow)

theorem toUpper_ascii {c : Char} (h : c.toNat < 128) : c.toUpper.toNat < 128 := by
  rcases toUpper_cases c with hc | ⟨-, hle, hc⟩
  · rwa [hc]
  · omega

/-- Below the capital letters `toUpper` neither changes nor makes anything. -/
theorem eq_of_eq_toUpper {c d : Char} (hc : c.toNat < 65) (h : c = d.toUpper) : c = d := by
  rcases toUpper_cases d with hd | ⟨hge, -, hd⟩
  · rw [h, hd]
  · rw [h] at hc
    omega

/-- White space of ASCII is below the letters and digits. -/
theorem small_of_asciiSpace {c : Char} (h : asciiSpace c = true) : c.toNat < 65 := by
  rcases Bool.or_eq_true_iff.mp h with h | h
  · rw [beq_iff_eq.mp h]
    decide
  · have hle := of_decide_eq_true (Bool.and_eq_true_iff.mp h).2
    omega

theorem toUpper_small {c : Char} (h : c.toNat < 65) : c.toUpper = c := by
  rcases toUpper_cases c with hc | ⟨hge, -, -⟩
  · exact hc
  · omega

/-- The POSIX locale. -/
def Locale.posix : Locale where
  space := asciiSpace
  upper := Char.toUpper
  space_ascii _ _ := rfl
  upper_ascii _ _ _ _ h := h
  upper_space _ _ h heq := by
    have hsmall := small_of_asciiSpace h
    rw [toUpper_small hsmall] at heq
    exact eq_of_eq_toUpper hsmall heq

/-- A locale where `İ` is the capital letter of `i`, and `ı` the small one of `I`. -/
def Locale.turkish : Locale where
  space := asciiSpace
  upper c := if c = 'i' then 'İ' else if c = 'ı' then 'I' else c.toUpper
  space_ascii _ _ := rfl
  upper_ascii c d hc hd h := by
    have hdotless : ∀ {c : Char}, c.toNat < 128 → c ≠ 'ı' := fun hc hcon => by
      rw [hcon] at hc
      exact absurd hc (by decide)
    have hdotted : ∀ {c : Char}, c.toNat < 128 → 'İ' ≠ c.toUpper := fun hc hcon =>
      absurd (hcon ▸ toUpper_ascii hc : 'İ'.toNat < 128) (by decide)
    rw [if_neg (hdotless hc), if_neg (hdotless hd)] at h
    split at h
    · split at h
      · simp_all
      · exact absurd h (hdotted hd)
    · split at h
      · exact absurd h.symm (hdotted hc)
      · exact h
  upper_space c d h heq := by
    have hsmall := small_of_asciiSpace h
    have hne : ∀ {x : Char}, 65 ≤ x.toNat → c ≠ x := fun hx hcx => by
      rw [hcx] at hsmall
      omega
    rw [if_neg (hne (by decide)), if_neg (hne (by decide)), toUpper_small hsmall] at heq
    split at heq
    · exact absurd heq (hne (by decide))
    · split at heq
      · exact absurd heq (hne (by decide))
      · exact eq_of_eq_toUpper hsmall heq

/-- `[[:xdigit:]]` -/
def xdigit (c : Char) : Bool :=
  ('0' ≤ c && c ≤ '9') || ('a' ≤ c && c ≤ 'f') || ('A' ≤ c && c ≤ 'F')

namespace Item

/-- An item that is a character of a set. -/
def is (q : Char → Bool) : Item → Bool
  | char c => q c
  | byte _ => false

@[simp] theorem is_char {q : Char → Bool} {c : Char} : is q (char c) = q c := rfl

@[simp] theorem is_byte {q : Char → Bool} {b : UInt8} : is q (byte b) = false := rfl

theorem is_eq_true_iff {q : Char → Bool} {i : Item} :
    i.is q = true ↔ ∃ c, i = char c ∧ q c = true := by
  cases i with
  | char c => simp
  | byte b => simp

end Item

def one (q : Char → Bool) : Ere Item := .set (Item.is q)

def literal (s : String) : Ere Item := sets (s.toList.map fun c => Item.is (· == c))

theorem over_one {q : Item → Prop} {p : Char → Bool} (h : ∀ c, p c = true → q (.char c)) :
    Over q (one p) := by
  intro i hi
  obtain ⟨c, rfl, hc⟩ := Item.is_eq_true_iff.mp hi
  exact h c hc

/-- What is true of the characters of a word is true of its matches. -/
theorem over_literal {q : Item → Prop} {s : String} (h : ∀ c ∈ s.toList, q (.char c)) :
    Over q (literal s) := by
  refine over_sets.mpr (List.forall_mem_map.mpr fun c hc i hi => ?_)
  obtain ⟨d, rfl, hd⟩ := Item.is_eq_true_iff.mp hi
  rw [beq_iff_eq.mp hd]
  exact h c hc

namespace Locale

variable (L : Locale)

/-- `[^[:space:]]` -/
def notSpace : Item → Bool := Item.is fun c => !L.space c

/-- A word with the flag `I`. -/
def word (s : String) : Ere Item :=
  sets (s.toList.map fun c => Item.is fun d => L.upper d == L.upper c)

/-- The characters below 128 that are no white space. -/
def plain (c : Char) : Bool := c.toNat < 128 && !asciiSpace c

variable {L}

/-- A plain character is white space in no locale. -/
theorem space_plain {c : Char} (h : plain c = true) : L.space c = false := by
  obtain ⟨hascii, hspace⟩ := Bool.and_eq_true_iff.mp h
  rw [L.space_ascii c (of_decide_eq_true hascii)]
  rwa [Bool.not_eq_true'] at hspace

theorem notSpace_plain {c : Char} (h : plain c = true) : L.notSpace (.char c) = true := by
  rw [notSpace, Item.is_char, space_plain h]
  rfl

theorem notSpace_text {s : String} (h : ∀ c ∈ s.toList, plain c = true) :
    ∀ i ∈ text s, L.notSpace i = true :=
  List.forall_mem_map.mpr fun c hc => notSpace_plain (h c hc)

/-- What a letter with the flag `I` matches is no other ASCII character. -/
theorem ne_of_upper_eq {c d : Char} (hc : c ∈ letters) (h : L.upper d = L.upper c) {x : Char}
    (hascii : x.toNat < 128) (hx : x.toUpper ∉ letters.map Char.toUpper) : d ≠ x := by
  have hletter : ∀ c ∈ letters, c.toNat < 128 := forall_of_all (by decide)
  rintro rfl
  rw [L.upper_ascii d c hascii (hletter c hc) h] at hx
  exact hx (List.mem_map_of_mem hc)

/-- What a letter with the flag `I` matches is no white space. -/
theorem notSpace_of_upper_eq {c d : Char} (hc : c ∈ letters) (h : L.upper d = L.upper c) :
    L.notSpace (.char d) = true := by
  have hplain : ∀ c ∈ letters, plain c = true := forall_of_all (by decide)
  cases hd : L.space d with
  | false => rw [notSpace, Item.is_char, hd]; rfl
  | true =>
      rw [L.upper_space d c hd h, space_plain (hplain c hc)] at hd
      cases hd

/-- What a match with the flag `I` consists of, letter by letter. -/
theorem over_word {q : Item → Prop} {s : String} (hs : Letters s)
    (h : ∀ c ∈ letters, ∀ d, L.upper d = L.upper c → q (.char d)) : Over q (L.word s) := by
  refine over_sets.mpr (List.forall_mem_map.mpr fun c hc i hi => ?_)
  obtain ⟨d, rfl, hd⟩ := Item.is_eq_true_iff.mp hi
  exact h c (hs c hc) d (beq_iff_eq.mp hd)

end Locale

/-! ## the rules -/

/-- `s#(https?://[^?[:space:]]+)\?[^[:space:]]+#\1?[REDACTED]#g` -/
def urlQuery (L : Locale) : Behind Item where
  head := .seq (literal "http") (.seq (opt (literal "s")) (.seq (literal "://")
    (plus (one fun c => c != '?' && !L.space c))))
  mark := Item.is (· == '?')
  value := L.notSpace
  least := true
  blank := text "?[REDACTED]"
  head_unmarked := by
    have hhost : Over (fun i => Item.is (· == '?') i = false)
        (one fun c => c != '?' && !L.space c) := over_one fun c hc => by
      simpa using (Bool.and_eq_true_iff.mp hc).1
    have hliteral : ∀ s : String, '?' ∉ s.toList →
        Over (fun i => Item.is (· == '?') i = false) (literal s) :=
      fun s hs => over_literal fun c hc => beq_false_of_ne fun h => hs (h ▸ hc)
    exact ⟨hliteral "http" (by decide), ⟨trivial, hliteral "s" (by decide)⟩,
      hliteral "://" (by decide), hhost, hhost⟩
  blank_value := Locale.notSpace_text (forall_of_all (by decide))

/-- `s/([[:xdigit:]]{2}:){5}[[:xdigit:]]{2}/[REDACTED-MAC]/g` -/
def mac : Subst Item where
  pattern := .seq (rep (.seq (rep (one xdigit) 2) (literal ":")) 5) (rep (one xdigit) 2)
  replace _ := text "[REDACTED-MAC]"

/-- `[[:xdigit:]]{8}-[[:xdigit:]]{4}-[1-5][[:xdigit:]]{3}-[89abAB][[:xdigit:]]{3}-` and
`[[:xdigit:]]{12}` -/
def uuid : Subst Item where
  pattern := .seq (rep (one xdigit) 8) (.seq (literal "-") (.seq (rep (one xdigit) 4)
    (.seq (literal "-") (.seq (one fun c => '1' ≤ c && c ≤ '5') (.seq (rep (one xdigit) 3)
    (.seq (literal "-") (.seq (one fun c => c ∈ "89abAB".toList) (.seq (rep (one xdigit) 3)
    (.seq (literal "-") (rep (one xdigit) 12))))))))))
  replace _ := text "[REDACTED-UUID]"

/-- `s/(word|…)[=:][^[:space:]]*/\1=[REDACTED]/gI` -/
def assigned (L : Locale) (words : List String) (h : ∀ s ∈ words, Letters s) : Behind Item where
  head := alts (words.map L.word)
  mark := Item.is fun c => c == '=' || c == ':'
  value := L.notSpace
  least := false
  blank := text "=[REDACTED]"
  head_unmarked := over_alts.mpr (List.forall_mem_map.mpr fun s hs =>
    Locale.over_word (h s hs) fun c hc d hd => by
      have heq := Locale.ne_of_upper_eq (x := '=') hc hd (by decide) (by decide)
      have hcolon := Locale.ne_of_upper_eq (x := ':') hc hd (by decide) (by decide)
      rw [Item.is_char, beq_false_of_ne heq, beq_false_of_ne hcolon, Bool.or_false])
  blank_value := Locale.notSpace_text (forall_of_all (by decide))

def ssidWords : List String := ["ssid", "bssid"]

def secretWords : List String :=
  ["password", "passwd", "psk", "secret", "token", "credential"]

/-- The keywords are small ASCII letters. -/
theorem letters_keyword : ∀ s ∈ ssidWords ++ secretWords, Letters s :=
  forall_of_all (by decide)

/-- `s/(ssid|bssid)[=:][^[:space:]]*/\1=[REDACTED]/gI` -/
def ssid (L : Locale) : Behind Item :=
  assigned L ssidWords fun s hs => letters_keyword s (List.mem_append_left _ hs)

/-- `s/(password|passwd|psk|secret|token|credential)[=:][^[:space:]]*/\1=[REDACTED]/gI` -/
def secret (L : Locale) : Behind Item :=
  assigned L secretWords fun s hs => letters_keyword s (List.mem_append_right _ hs)

/-- One line through `redact_stream`. -/
def redact (L : Locale) (line : Line) : Line :=
  (secret L).subst.subst ((ssid L).subst.subst
    (uuid.subst (mac.subst ((urlQuery L).subst.subst line))))

/-! ## addresses -/

def EndsHex (r : Ere Item) : Prop := ∀ m, Matches r m →
  ∃ u a b, m = u ++ [a, b] ∧ a.is xdigit = true ∧ b.is xdigit = true

theorem endsHex_seq {r s : Ere Item} (h : EndsHex s) : EndsHex (.seq r s) := by
  intro m hm
  obtain ⟨u, v, rfl, -, hv⟩ := matches_seq.mp hm
  obtain ⟨w, a, b, rfl, hab⟩ := h v hv
  exact ⟨u ++ w, a, b, by rw [List.append_assoc], hab⟩

/-- Two digits or more end with two. -/
theorem endsHex_rep (n : Nat) : EndsHex (rep (one xdigit) (n + 2)) := by
  intro m hm
  obtain ⟨hlen, hall⟩ := matches_rep_set.mp hm
  obtain ⟨m, b, rfl⟩ := (List.eq_nil_or_concat m).resolve_left fun h => by
    rw [h] at hlen
    cases hlen
  rw [List.concat_eq_append] at hlen hall ⊢
  obtain ⟨m, a, rfl⟩ := (List.eq_nil_or_concat m).resolve_left fun h => by
    rw [h] at hlen
    simp at hlen
  rw [List.concat_eq_append, List.append_assoc] at hall ⊢
  exact ⟨m, a, b, rfl, hall a (by simp), hall b (by simp)⟩

/-- Matches of hexadecimal digits with a separator, the first behind `n` digits, two
digits at the end. -/
structure Address (s : Subst Item) (n : Nat) (sep : Char) : Prop where
  front : ∀ m, Matches s.pattern m → ∃ u r, m = u ++ .char sep :: r ∧ u.length = n ∧
    ∀ i ∈ u, i.is xdigit = true
  back : EndsHex s.pattern
  spans : Over (fun i => i.is (fun c => xdigit c || c == sep) = true) s.pattern

/-- A word stands for itself. -/
theorem matches_literal {s : String} {t : Line} : Matches (literal s) t ↔ t = text s := by
  rw [literal, matches_sets, text]
  induction s.toList generalizing t with
  | nil => simp
  | cons c cs ih =>
      rw [List.map_cons, List.map_cons, List.forall₂_cons_left_iff]
      constructor
      · rintro ⟨i, u, hi, hu, rfl⟩
        obtain ⟨d, rfl, hd⟩ := Item.is_eq_true_iff.mp hi
        rw [beq_iff_eq.mp hd, ih.mp hu]
      · rintro rfl
        exact ⟨.char c, _, by simp, ih.mpr rfl, rfl⟩

theorem over_xdigit {sep : Char} (n : Nat) :
    Over (fun i => Item.is (fun c => xdigit c || c == sep) i = true) (rep (one xdigit) n) :=
  over_rep (over_one fun c hc => by rw [Item.is_char, hc, Bool.true_or]) n

theorem address_mac : Address mac 2 ':' where
  front m hm := by
    obtain ⟨groups, last, rfl, hgroups, -⟩ := matches_seq.mp hm
    obtain ⟨group, rest, rfl, hgroup, -⟩ := matches_rep_succ.mp hgroups
    obtain ⟨u, colon, rfl, hu, hcolon⟩ := matches_seq.mp hgroup
    obtain rfl := matches_literal.mp hcolon
    obtain ⟨hlen, hall⟩ := matches_rep_set.mp hu
    exact ⟨u, rest ++ last, by simp [text], hlen, hall⟩
  back := endsHex_seq (endsHex_rep 0)
  spans := ⟨over_rep (r := .seq _ _)
    ⟨over_xdigit 2, over_literal (forall_of_all (by decide))⟩ 5, over_xdigit 2⟩

theorem address_uuid : Address uuid 8 '-' where
  front m hm := by
    obtain ⟨u, v, rfl, hu, hv⟩ := matches_seq.mp hm
    obtain ⟨dash, rest, rfl, hdash, -⟩ := matches_seq.mp hv
    obtain rfl := matches_literal.mp hdash
    obtain ⟨hlen, hall⟩ := matches_rep_set.mp hu
    exact ⟨u, rest, by simp [text], hlen, hall⟩
  back := by
    unfold uuid
    iterate 10 refine endsHex_seq ?_
    exact endsHex_rep 10
  spans := by
    have hdash : Over (fun i => Item.is (fun c => xdigit c || c == '-') i = true) (literal "-") :=
      over_literal (forall_of_all (by decide))
    have hversion : Over (fun i => Item.is (fun c => xdigit c || c == '-') i = true)
        (one fun c => '1' ≤ c && c ≤ '5') := by
      refine over_one fun c hc => ?_
      obtain ⟨hlow, hhigh⟩ := Bool.and_eq_true_iff.mp hc
      have hnine : c ≤ '9' := Char.le_trans (of_decide_eq_true hhigh) (by decide)
      have hzero : '0' ≤ c := Char.le_trans (by decide) (of_decide_eq_true hlow)
      rw [Item.is_char, xdigit, decide_eq_true hnine, decide_eq_true hzero]
      rfl
    have hvariant : Over (fun i => Item.is (fun c => xdigit c || c == '-') i = true)
        (one fun c => c ∈ "89abAB".toList) := by
      refine over_one fun c hc => ?_
      have hall : ∀ c ∈ "89abAB".toList, (xdigit c || c == '-') = true :=
        forall_of_all (by decide)
      exact hall c (of_decide_eq_true hc)
    exact ⟨over_xdigit 8, hdash, over_xdigit 4, hdash, hversion, over_xdigit 3, hdash, hvariant,
      over_xdigit 3, hdash, over_xdigit 12⟩

section

variable {s : Subst Item} {n : Nat} {sep : Char}

namespace Address

/-- An address begins with a digit. -/
theorem quiet (A : Address s (n + 1) sep) {i : Item} (hi : i.is xdigit = false) (t : Line) :
    s.subst (i :: t) = i :: s.subst t := by
  refine s.subst_quiet fun k hk => ?_
  obtain ⟨u, r, hm, hlen, hall⟩ := A.front _ (longest_eq_some_iff.mp hk).2.1
  cases u with
  | nil => cases hlen
  | cons a u =>
      rw [List.take_succ_cons, List.cons_append] at hm
      rw [(List.cons.inj hm).1, hall a List.mem_cons_self] at hi
      cases hi

/-- What is in no address divides the text. -/
theorem subst_stopper (A : Address s n sep) {i : Item} (hi : i.is xdigit = false)
    (hsep : i ≠ .char sep) (u t : Line) : s.subst (u ++ i :: t) = s.subst u ++ i :: s.subst t := by
  refine Subst.subst_stopper (fun m hm hmem => ?_) u t
  obtain ⟨c, rfl, hc⟩ := Item.is_eq_true_iff.mp (A.spans.forall_mem hm i hmem)
  rcases Bool.or_eq_true_iff.mp hc with hc | hc
  · rw [Item.is_char, hc] at hi
    cases hi
  · exact hsep (by rw [beq_iff_eq.mp hc])

/-- The last two items of an address are digits. -/
theorem back_concat (A : Address s n sep) {m : Line} {i : Item}
    (h : Matches s.pattern (m ++ [i])) :
    i.is xdigit = true ∧ ∃ u a, m = u ++ [a] ∧ a.is xdigit = true := by
  obtain ⟨u, a, b, hm, ha, hb⟩ := A.back _ h
  rw [List.append_cons u a [b]] at hm
  obtain ⟨hm, hi⟩ := List.append_inj' hm rfl
  exact ⟨List.singleton_inj.mp hi ▸ hb, u, a, hm, ha⟩

/-- Nor does an address end before its last digit. -/
theorem subst_concat_not (A : Address s n sep) {i : Item} (hi : i.is xdigit = false) (u : Line) :
    s.subst (u ++ [i]) = s.subst u ++ [i] :=
  Subst.subst_concat fun m _ hm => by
    rw [(A.back_concat hm).1] at hi
    cases hi

/-- No address begins in a keyword that does not end with so many digits. -/
theorem quiet_keyword (A : Address s n sep) {k : Line} {x : Item}
    (hsep : ∀ i ∈ k, i ≠ .char sep) (hdigits : k.map (Item.is xdigit) ≠ List.replicate n true)
    (hx : x.is xdigit = false) {m v : Line} (hm : m <+: k ++ x :: v) : ¬ Matches s.pattern m := by
  intro hmatch
  obtain ⟨u, r, rfl, hlen, hall⟩ := A.front m hmatch
  have hfront : u ++ [.char sep] <+: k ++ x :: v := by
    refine List.IsPrefix.trans ⟨r, ?_⟩ hm
    rw [List.append_assoc, List.singleton_append]
  rcases List.prefix_or_prefix_of_prefix hfront (List.prefix_append k _) with h | h
  · exact hsep _ (h.mem (by simp)) rfl
  · rcases List.prefix_concat_iff.mp h with rfl | ⟨w, rfl⟩
    · exact hsep (.char sep) (by simp) rfl
    · cases w with
      | nil =>
          rw [List.append_nil] at hlen hall
          refine hdigits (List.eq_replicate_iff.mpr ⟨by rw [List.length_map, hlen], ?_⟩)
          exact List.forall_mem_map.mpr hall
      | cons y w =>
          rw [List.append_assoc, List.prefix_append_right_inj, List.cons_append,
            List.cons_prefix_cons] at hfront
          rw [← hfront.1, hall y (by simp)] at hx
          cases hx

/-- A keyword that does not end with the digits of an address stays in front of its mark. -/
theorem subst_keyword (A : Address s (n + 1) sep) {k : Line} {x : Item}
    (hsep : ∀ i ∈ k, i ≠ .char sep)
    (hdigits : ¬ List.replicate (n + 1) true <:+ k.map (Item.is xdigit))
    (hx : x.is xdigit = false) (v : Line) :
    s.subst (k ++ x :: v) = k ++ x :: s.subst v := by
  induction k with
  | nil => exact A.quiet hx v
  | cons i k ih =>
      have htail := ih (fun j hj => hsep j (List.mem_cons_of_mem i hj))
        fun h => hdigits (h.trans (List.suffix_cons _ _))
      have hnone : longest s.pattern (i :: (k ++ x :: v)) = Option.none :=
        longest_eq_none_iff.mpr fun m hm => A.quiet_keyword (k := i :: k) hsep
          (fun h => hdigits (h ▸ List.suffix_rfl)) hx hm
      rw [List.cons_append, s.subst_none hnone, htail, List.cons_append]

/-- Where the keyword `k` is not cut by an address in front of it. -/
def Apart (p k : Line) : Prop :=
  (∃ i k', k = i :: k' ∧ i.is xdigit = false) ∨
    (∃ i j k', k = i :: j :: k' ∧ j.is xdigit = false) ∧
      ∀ u a, p = u ++ [a] → a.is xdigit = false

/-- The keyword and its mark go through, and what comes in front and behind on its own. -/
theorem subst_apart (A : Address s (n + 1) sep) {p k : Line} {x : Item} (hap : Apart p k)
    (hsep : ∀ i ∈ k, i ≠ .char sep)
    (hdigits : ¬ List.replicate (n + 1) true <:+ k.map (Item.is xdigit))
    (hx : x.is xdigit = false) (v : Line) :
    s.subst (p ++ (k ++ x :: v)) = s.subst p ++ (k ++ x :: s.subst v) := by
  have hkey : ∀ k', k' <:+ k → s.subst (k' ++ x :: v) = k' ++ x :: s.subst v := fun k' hk =>
    A.subst_keyword (fun i hi => hsep i (hk.mem hi))
      (fun h => hdigits (h.trans (hk.map (Item.is xdigit)))) hx v
  rcases hap with ⟨i, k, rfl, hi⟩ | ⟨⟨i, j, k, rfl, hj⟩, hp⟩
  · rw [List.cons_append, A.subst_stopper hi (hsep i List.mem_cons_self),
      hkey k (List.suffix_cons i k), List.cons_append]
  · have hconcat : s.subst (p ++ [i]) = s.subst p ++ [i] := by
      refine Subst.subst_concat fun m hm hmatch => ?_
      obtain ⟨-, u, a, rfl, ha⟩ := A.back_concat hmatch
      obtain ⟨w, rfl⟩ := hm
      rw [hp (w ++ u) a (by rw [List.append_assoc])] at ha
      cases ha
    rw [List.cons_append, List.cons_append, List.append_cons, A.subst_stopper hj (hsep j (by simp)),
      hconcat, hkey k ((List.suffix_cons j k).trans (List.suffix_cons i (j :: k))),
      List.append_assoc, List.singleton_append, List.cons_append, List.cons_append]

/-- A pass over what is in front cuts no keyword. -/
theorem Apart.subst (A : Address s n sep) {p k : Line} (h : Apart p k) :
    Apart (s.subst p) k := by
  refine h.imp_right fun h => ⟨h.1, ?_⟩
  obtain ⟨-, hp⟩ := h
  rcases List.eq_nil_or_concat p with rfl | ⟨p, a, rfl⟩
  · intro u a hu
    simp at hu
  · intro u b hu
    rw [List.concat_eq_append] at hp hu
    rw [A.subst_concat_not (hp p a rfl)] at hu
    rw [← List.singleton_inj.mp (List.append_inj' hu rfl).2]
    exact hp p a rfl

end Address

end

/-! ## keywords -/

/-- A keyword as it may stand in a line: each letter small, or capital where the locale
takes the two cases for one. -/
def Spelled (L : Locale) (s : String) (k : Line) : Prop :=
  List.Forall₂ (fun c i => i = .char c ∨ i = .char c.toUpper ∧ L.upper c.toUpper = L.upper c)
    s.toList k

variable {L : Locale}

/-- Outside a Turkish locale every letter may stand in either case. -/
theorem spelled_of_paired (hpaired : ∀ c ∈ letters, L.upper c.toUpper = L.upper c) {s : String}
    {k : Line} (hs : Letters s)
    (h : List.Forall₂ (fun c i => i = .char c ∨ i = .char c.toUpper) s.toList k) :
    Spelled L s k := by
  have hboth := (List.forall₂_and_left (p := (· ∈ letters)) _ _).mpr ⟨hs, h⟩
  exact hboth.imp fun c i ⟨hc, hi⟩ => hi.imp_right fun hi => ⟨hi, hpaired c hc⟩

/-- A keyword stands beside its rule letter by letter, in either case. -/
theorem Spelled.either {s : String} {k : Line} (hs : Letters s) (h : Spelled L s k) :
    List.Forall₂ (fun c i => c ∈ letters ∧ (i = .char c ∨ i = .char c.toUpper)) s.toList k := by
  have hboth := (List.forall₂_and_left (p := (· ∈ letters)) _ _).mpr ⟨hs, h⟩
  exact hboth.imp fun c i ⟨hc, hi⟩ => ⟨hc, hi.imp_right And.left⟩

theorem Spelled.exists_letter {s : String} {k : Line} (hs : Letters s) (h : Spelled L s k) :
    ∀ i ∈ k, ∃ c ∈ letters, i = .char c ∨ i = .char c.toUpper := by
  have hall := h.either hs
  clear h
  generalize s.toList = cs at hall
  induction hall with
  | nil => exact List.forall_mem_nil _
  | cons hi _ ih => exact List.forall_mem_cons.mpr ⟨⟨_, hi⟩, ih⟩

/-- A keyword as it is spelled matches its rule. -/
theorem Spelled.matches_word {s : String} {k : Line} (h : Spelled L s k) :
    Matches (L.word s) k := by
  rw [Locale.word, matches_sets, List.forall₂_map_left_iff]
  refine h.imp fun c i hi => ?_
  rcases hi with rfl | ⟨rfl, hpair⟩
  · simp
  · rw [Item.is_char, beq_iff_eq, hpair]

/-- Which items of a keyword are hexadecimal digits does not depend on the case. -/
theorem Spelled.map_xdigit {s : String} {k : Line} (hs : Letters s) (h : Spelled L s k) :
    k.map (Item.is xdigit) = s.toList.map xdigit := by
  have hcase : ∀ c ∈ letters, xdigit c.toUpper = xdigit c := forall_of_all (by decide)
  have hall := h.either hs
  clear h
  generalize s.toList = cs at hall ⊢
  induction hall with
  | nil => rfl
  | @cons c i _ _ hi _ ih =>
      rw [List.map_cons, List.map_cons, ih]
      obtain ⟨hc, rfl | rfl⟩ := hi
      · rfl
      · rw [Item.is_char, hcase c hc]

/-- A keyword holds nothing but letters. -/
theorem Spelled.ne_char {s : String} {k : Line} (hs : Letters s) (h : Spelled L s k) {x : Char}
    (hx : x ∉ letters ++ letters.map Char.toUpper) : ∀ i ∈ k, i ≠ .char x := by
  rintro i hi rfl
  obtain ⟨c, hc, hi | hi⟩ := h.exists_letter hs _ hi
  · exact hx (List.mem_append_left _ (Item.char.inj hi ▸ hc))
  · exact hx (List.mem_append_right _ (Item.char.inj hi ▸ List.mem_map_of_mem hc))

/-- A keyword has no white space. -/
theorem Spelled.notSpace {s : String} {k : Line} (hs : Letters s) (h : Spelled L s k) :
    ∀ i ∈ k, L.notSpace i = true := by
  have hplain : ∀ c ∈ letters, Locale.plain c = true ∧ Locale.plain c.toUpper = true :=
    forall_of_all (by decide)
  intro i hi
  obtain ⟨c, hc, rfl | rfl⟩ := h.exists_letter hs i hi
  · exact Locale.notSpace_plain (hplain c hc).1
  · exact Locale.notSpace_plain (hplain c hc).2

/-! ## white space divides a line -/

theorem plain_xdigit {c : Char} (h : xdigit c = true) : Locale.plain c = true := by
  have hrange : (48 ≤ c.toNat ∧ c.toNat ≤ 57 ∨ 97 ≤ c.toNat ∧ c.toNat ≤ 102) ∨
      65 ≤ c.toNat ∧ c.toNat ≤ 70 := by
    simp only [xdigit, Bool.or_eq_true, Bool.and_eq_true, decide_eq_true_eq] at h
    exact h
  have hspace : c ≠ ' ' := by
    rintro rfl
    revert hrange
    decide
  have hascii : c.toNat < 128 := by omega
  have hcontrol : ¬ (9 ≤ c.toNat ∧ c.toNat ≤ 13) := by omega
  simp [Locale.plain, asciiSpace, hascii, hspace]
  omega

/-- No match of a keyword reaches over white space. -/
theorem stopper_assigned {words : List String} (h : ∀ s ∈ words, Letters s) {m : Line}
    (hm : Matches (assigned L words h).subst.pattern m) : ∀ i ∈ m, L.notSpace i = true := by
  obtain ⟨w, x, q, rfl, hw, hx, -, hq⟩ := Behind.matches_subst.mp hm
  have hhead : Over (fun i => L.notSpace i = true) (assigned L words h).head :=
    over_alts.mpr (List.forall_mem_map.mpr fun s hs =>
      Locale.over_word (h s hs) fun c hc d hd => Locale.notSpace_of_upper_eq hc hd)
  refine List.forall_mem_append.mpr ⟨hhead.forall_mem hw, List.forall_mem_cons.mpr ⟨?_, hq⟩⟩
  obtain ⟨c, rfl, hc⟩ := Item.is_eq_true_iff.mp hx
  rcases Bool.or_eq_true_iff.mp hc with hc | hc
  · rw [beq_iff_eq.mp hc]
    exact Locale.notSpace_plain (by decide)
  · rw [beq_iff_eq.mp hc]
    exact Locale.notSpace_plain (by decide)

/-- Nor does a match of an address of the web. -/
theorem stopper_urlQuery {m : Line} (hm : Matches (urlQuery L).subst.pattern m) :
    ∀ i ∈ m, L.notSpace i = true := by
  obtain ⟨w, x, q, rfl, hw, hx, -, hq⟩ := Behind.matches_subst.mp hm
  have hliteral : ∀ s : String, (∀ c ∈ s.toList, Locale.plain c = true) →
      Over (fun i => L.notSpace i = true) (literal s) :=
    fun s hs => over_literal fun c hc => Locale.notSpace_plain (hs c hc)
  have hhost : Over (fun i => L.notSpace i = true) (one fun c => c != '?' && !L.space c) :=
    over_one fun c hc => (Bool.and_eq_true_iff.mp hc).2
  have hhead : Over (fun i => L.notSpace i = true) (urlQuery L).head :=
    ⟨hliteral "http" (forall_of_all (by decide)),
      ⟨trivial, hliteral "s" (forall_of_all (by decide))⟩,
      hliteral "://" (forall_of_all (by decide)), hhost, hhost⟩
  refine List.forall_mem_append.mpr ⟨hhead.forall_mem hw, List.forall_mem_cons.mpr ⟨?_, hq⟩⟩
  obtain ⟨c, rfl, hc⟩ := Item.is_eq_true_iff.mp hx
  rw [beq_iff_eq.mp hc]
  exact Locale.notSpace_plain (by decide)

/-- Nor does a MAC address or a UUID. -/
theorem Address.stopper {s : Subst Item} {n : Nat} {sep : Char} (A : Address s n sep)
    (hsep : Locale.plain sep = true) {m : Line} (hm : Matches s.pattern m) :
    ∀ i ∈ m, L.notSpace i = true := by
  intro i hi
  obtain ⟨c, rfl, hc⟩ := Item.is_eq_true_iff.mp (A.spans.forall_mem hm i hi)
  rcases Bool.or_eq_true_iff.mp hc with hc | hc
  · exact Locale.notSpace_plain (plain_xdigit hc)
  · exact Locale.notSpace_plain (beq_iff_eq.mp hc ▸ hsep)

/-- White space, or a byte that is no character, divides the redaction of a line. -/
theorem redact_stopper {x : Item} (hx : L.notSpace x = false) (u t : Line) :
    redact L (u ++ x :: t) = redact L u ++ x :: redact L t := by
  have hdivide : ∀ {s : Subst Item}, (∀ m, Matches s.pattern m → ∀ i ∈ m, L.notSpace i = true) →
      ∀ u t, s.subst (u ++ x :: t) = s.subst u ++ x :: s.subst t := by
    intro s hs
    refine Subst.subst_stopper fun m hm hmem => ?_
    rw [hs m hm x hmem] at hx
    cases hx
  unfold redact
  rw [hdivide (fun m => stopper_urlQuery), hdivide (fun m => address_mac.stopper (by decide)),
    hdivide (fun m => address_uuid.stopper (by decide)),
    hdivide (s := (ssid L).subst) (fun m => stopper_assigned _),
    hdivide (s := (secret L).subst) (fun m => stopper_assigned _)]

/-! ## what is hidden -/

/-- A word of the line: no item is white space. -/
def Word (L : Locale) (v : Line) : Prop := ∀ i ∈ v, L.notSpace i = true

/-- The result does not depend on the word behind `t`. -/
def Hides (L : Locale) (f : Line → Line) (t : Line) : Prop :=
  ∃ c, ∀ v, Word L v → f (t ++ v) = c

/-- A pass that hides the word behind `t`, or makes `t'` and a word of it. -/
def HidesOrKeeps (L : Locale) (f : Line → Line) (t t' : Line) : Prop :=
  Hides L f t ∨ ∀ v, Word L v → ∃ v', Word L v' ∧ f (t ++ v) = t' ++ v'

/-- A pass that keeps the word leaves it to the next one to hide it. -/
theorem HidesOrKeeps.hides {f g : Line → Line} {t t' : Line} (hf : HidesOrKeeps L f t t')
    (hg : Hides L g t') : Hides L (fun line => g (f line)) t := by
  rcases hf with ⟨c, hc⟩ | hkeep
  · exact ⟨g c, fun v hv => congrArg g (hc v hv)⟩
  · obtain ⟨c, hc⟩ := hg
    refine ⟨c, fun v hv => ?_⟩
    obtain ⟨v', hv', hfv⟩ := hkeep v hv
    exact (congrArg g hfv).trans (hc v' hv')

def keywords : List String := ssidWords ++ secretWords

/-- A keyword and the `=` or `:` behind it. -/
structure Key (L : Locale) (s : String) (k : Line) (x : Item) : Prop where
  mem : s ∈ keywords
  spelled : Spelled L s k
  mark : x = .char '=' ∨ x = .char ':'

namespace Key

variable {s : String} {p k : Line} {x : Item}

theorem lower (h : Key L s k x) : Letters s := letters_keyword s h.mem

theorem word (h : Key L s k x) : Word L k := h.spelled.notSpace h.lower

theorem not_xdigit (h : Key L s k x) : x.is xdigit = false := by
  rcases h.mark with rfl | rfl <;> decide

theorem notSpace_mark (h : Key L s k x) : L.notSpace x = true := by
  rcases h.mark with rfl | rfl <;> exact Locale.notSpace_plain (by decide)

/-- The rule for queries takes the keyword with its value, or leaves both. -/
theorem hidesOrKeeps_urlQuery (h : Key L s k x) (hp : Word L p) :
    HidesOrKeeps L (urlQuery L).subst.subst (p ++ k ++ [x]) (p ++ k ++ [x]) := by
  have hmark : Item.is (· == '?') x = false := by
    rcases h.mark with rfl | rfl <;> decide
  exact Behind.subst_const_or_keep (b := urlQuery L) (List.forall_mem_append.mpr ⟨hp, h.word⟩)
    h.notSpace_mark (.inl hmark)

/-- So does a rule for other keywords. -/
theorem hidesOrKeeps_assigned (h : Key L s k x) (hp : Word L p) {words : List String}
    (hwords : ∀ w ∈ words, Letters w) :
    HidesOrKeeps L (assigned L words hwords).subst.subst (p ++ k ++ [x]) (p ++ k ++ [x]) :=
  Behind.subst_const_or_keep (b := assigned L words hwords)
    (List.forall_mem_append.mpr ⟨hp, h.word⟩) h.notSpace_mark (.inr rfl)

/-- The rule of the keyword hides the value. -/
theorem hides_assigned (h : Key L s k x) (hp : Word L p) {words : List String}
    (hwords : ∀ w ∈ words, Letters w) (hs : s ∈ words) :
    Hides L (assigned L words hwords).subst.subst (p ++ k ++ [x]) := by
  have hmark : Item.is (fun c => c == '=' || c == ':') x = true := by
    rcases h.mark with rfl | rfl <;> decide
  have hhit : (assigned L words hwords).Hit (p ++ k ++ [x]) :=
    ⟨p, k, x, [], List.append_assoc p k [x],
      matches_alts.mpr ⟨L.word s, List.mem_map_of_mem hs, h.spelled.matches_word⟩, hmark⟩
  have hvalue : Word L (p ++ k ++ [x]) :=
    List.forall_mem_append.mpr ⟨List.forall_mem_append.mpr ⟨hp, h.word⟩,
      List.forall_mem_singleton.mpr h.notSpace_mark⟩
  obtain ⟨c, hc⟩ := Behind.subst_hit (b := assigned L words hwords) hvalue hhit
  exact ⟨c, fun v hv => hc v hv fun hleast => absurd hleast Bool.false_ne_true⟩

/-- A rule for addresses leaves the keyword and turns the value into another word. -/
theorem hidesOrKeeps_address (h : Key L s k x) (hap : Address.Apart p k) {r : Subst Item} {n : Nat}
    {sep : Char} (A : Address r (n + 1) sep) (hsep : sep ∉ letters ++ letters.map Char.toUpper)
    (hdigits : ¬ List.replicate (n + 1) true <:+ s.toList.map xdigit)
    (hblank : ∀ m, Word L (r.replace m)) :
    HidesOrKeeps L r.subst (p ++ k ++ [x]) (r.subst p ++ k ++ [x]) := by
  refine .inr fun v hv => ⟨r.subst v, r.forall_mem_subst (fun m _ _ => hblank m) hv, ?_⟩
  have hjoin : ∀ p v, p ++ k ++ [x] ++ v = p ++ (k ++ x :: v) := fun p v => by simp
  rw [hjoin, hjoin]
  refine A.subst_apart hap (h.spelled.ne_char h.lower hsep) ?_ h.not_xdigit v
  rwa [h.spelled.map_xdigit h.lower]

end Key

/-- No keyword ends with the digits that an address begins with. -/
theorem not_digits_keyword : ∀ s ∈ keywords, ¬ List.replicate 2 true <:+ s.toList.map xdigit ∧
    ¬ List.replicate 8 true <:+ s.toList.map xdigit := by
  decide

theorem word_text {s : String} (h : ∀ c ∈ s.toList, Locale.plain c = true) : Word L (text s) :=
  Locale.notSpace_text h

/-- One word of a line: what stands behind a keyword does not matter. -/
theorem hides_redact {s : String} {p k : Line} {x : Item} (h : Key L s k x) (hp : Word L p)
    (hap : Address.Apart p k) : Hides L (redact L) (p ++ k ++ [x]) := by
  obtain ⟨hdigits, hdigits'⟩ := not_digits_keyword s h.mem
  have hmac : Word L (mac.subst p) :=
    mac.forall_mem_subst (fun _ _ _ => word_text (forall_of_all (by decide))) hp
  have huuid : Word L (uuid.subst (mac.subst p)) :=
    uuid.forall_mem_subst (fun _ _ _ => word_text (forall_of_all (by decide))) hmac
  have hkeywords : Hides L (fun line => (secret L).subst.subst ((ssid L).subst.subst line))
      (uuid.subst (mac.subst p) ++ k ++ [x]) := by
    rcases List.mem_append.mp h.mem with hs | hs
    · obtain ⟨c, hc⟩ := h.hides_assigned huuid
        (fun s hs => letters_keyword s (List.mem_append_left _ hs)) hs
      exact ⟨_, fun v hv => congrArg (secret L).subst.subst (hc v hv)⟩
    · exact (h.hidesOrKeeps_assigned huuid
        (fun s hs => letters_keyword s (List.mem_append_left _ hs))).hides
        (h.hides_assigned huuid (fun s hs => letters_keyword s (List.mem_append_right _ hs)) hs)
  have hpastUuid := (h.hidesOrKeeps_address (hap.subst address_mac) address_uuid (by decide)
    hdigits' fun m => word_text (forall_of_all (by decide))).hides hkeywords
  have haddresses := (h.hidesOrKeeps_address hap address_mac (by decide) hdigits
    fun m => word_text (forall_of_all (by decide))).hides hpastUuid
  exact (h.hidesOrKeeps_urlQuery hp).hides haddresses

/-- Only `bssid` and `credential` begin with a hexadecimal digit. -/
theorem first_keyword : ∀ s ∈ keywords, (s.toList.map xdigit).take 1 = [false] ∨ s = "bssid" ∨
    s = "credential" ∧ (s.toList.map xdigit).take 2 = [true, false] := by
  decide

/-- No address in front cuts a keyword, but for `bssid` and `credential`. -/
theorem Key.apart {s : String} {p k : Line} {x : Item} (h : Key L s k x) (hs : s ≠ "bssid")
    (hcut : s = "credential" → ∀ u a, p = u ++ [a] → a.is xdigit = false) :
    Address.Apart p k := by
  have hmap := h.spelled.map_xdigit h.lower
  rcases first_keyword s h.mem with hfirst | hb | ⟨hc, hfirst⟩
  · rw [← hmap] at hfirst
    cases k with
    | nil => cases hfirst
    | cons i k => exact .inl ⟨i, k, rfl, (List.cons.inj hfirst).1⟩
  · exact absurd hb hs
  · rw [← hmap] at hfirst
    refine .inr ⟨?_, hcut hc⟩
    cases k with
    | nil => cases hfirst
    | cons i k =>
        cases k with
        | nil => simp at hfirst
        | cons j k => exact ⟨i, j, k, rfl, (List.cons.inj (List.cons.inj hfirst).2).1⟩

/-- The `b` of `bssid` may go with an address in front of it; the rest is a keyword too. -/
theorem Key.of_bssid {k : Line} {x : Item} (h : Key L "bssid" k x) :
    ∃ i k', k = i :: k' ∧ L.notSpace i = true ∧ Key L "ssid" k' x := by
  have hspelled : Spelled L "bssid" k := h.spelled
  obtain ⟨i, k', hi, hk', rfl⟩ := List.forall₂_cons_left_iff.mp hspelled
  exact ⟨i, k', rfl, h.word i List.mem_cons_self, by decide, hk', h.mark⟩

/-- A keyword hides the word behind it. -/
theorem Key.hides {s : String} {p k : Line} {x : Item} (h : Key L s k x) (hp : Word L p)
    (hcut : s = "credential" → ∀ u a, p = u ++ [a] → a.is xdigit = false) :
    Hides L (redact L) (p ++ k ++ [x]) := by
  by_cases hs : s = "bssid"
  · subst hs
    obtain ⟨i, k, rfl, hi, hkey⟩ := h.of_bssid
    have hword : Word L (p ++ [i]) :=
      List.forall_mem_append.mpr ⟨hp, List.forall_mem_singleton.mpr hi⟩
    have hcut' : "ssid" = "credential" → ∀ u a, p ++ [i] = u ++ [a] → a.is xdigit = false :=
      fun h => absurd h (by decide)
    rw [List.append_cons p i k]
    exact hides_redact hkey hword (hkey.apart (by decide) hcut')
  · exact hides_redact h hp (h.apart hs hcut)

/-- The query of an address of the web. -/
theorem hides_query {p w : Line} (hp : Word L p) (hw : Matches (urlQuery L).head w) :
    ∃ c, ∀ v, Word L v → v ≠ [] → redact L (p ++ w ++ [.char '?'] ++ v) = c := by
  have hhit : (urlQuery L).Hit (p ++ w ++ [.char '?']) :=
    ⟨p, w, .char '?', [], List.append_assoc p w _, hw, rfl⟩
  have hmatch : Matches (urlQuery L).subst.pattern (w ++ .char '?' :: [.char '?']) :=
    Behind.matches_subst.mpr ⟨w, .char '?', [.char '?'], rfl, hw, rfl, by simp,
      List.forall_mem_singleton.mpr (Locale.notSpace_plain (by decide))⟩
  have hword := (List.forall_mem_append.mp (stopper_urlQuery hmatch)).1
  have hvalue : Word L (p ++ w ++ [.char '?']) :=
    List.forall_mem_append.mpr ⟨List.forall_mem_append.mpr ⟨hp, hword⟩,
      List.forall_mem_singleton.mpr (Locale.notSpace_plain (by decide))⟩
  obtain ⟨c, hc⟩ := Behind.subst_hit (b := urlQuery L) hvalue hhit
  refine ⟨(secret L).subst.subst ((ssid L).subst.subst (uuid.subst (mac.subst c))),
    fun v hv hne => ?_⟩
  rw [redact, hc v hv fun _ => hne]

/-! ## lines -/

/-- The word a line ends with. -/
theorem exists_last_word (p : Line) :
    Word L p ∨ ∃ u i w, p = u ++ i :: w ∧ L.notSpace i = false ∧ Word L w := by
  induction p with
  | nil => exact .inl (List.forall_mem_nil _)
  | cons i p ih =>
      rcases ih with hp | ⟨u, j, w, rfl, hj, hw⟩
      · cases hi : L.notSpace i with
        | true => exact .inl (List.forall_mem_cons.mpr ⟨hi, hp⟩)
        | false => exact .inr ⟨[], i, p, rfl, hi, hp⟩
      · exact .inr ⟨i :: u, j, w, rfl, hj, hw⟩

/-- The word a line begins with. -/
theorem exists_first_word (t : Line) :
    ∃ w, Word L w ∧ (t = w ∨ ∃ i u, t = w ++ i :: u ∧ L.notSpace i = false) := by
  induction t with
  | nil => exact ⟨[], List.forall_mem_nil _, .inl rfl⟩
  | cons i t ih =>
      cases hi : L.notSpace i with
      | false => exact ⟨[], List.forall_mem_nil _, .inr ⟨i, t, rfl, hi⟩⟩
      | true =>
          obtain ⟨w, hw, ht | ⟨j, u, rfl, hj⟩⟩ := ih
          · exact ⟨i :: w, List.forall_mem_cons.mpr ⟨hi, hw⟩, .inl (congrArg (i :: ·) ht)⟩
          · exact ⟨i :: w, List.forall_mem_cons.mpr ⟨hi, hw⟩, .inr ⟨j, u, rfl, hj⟩⟩

/-- What follows a word does not matter. -/
theorem redact_append_congr {t t' : Line}
    (h : ∀ w, Word L w → redact L (t ++ w) = redact L (t' ++ w)) (post : Line) :
    redact L (t ++ post) = redact L (t' ++ post) := by
  obtain ⟨w, hw, rfl | ⟨i, u, rfl, hi⟩⟩ := exists_first_word (L := L) post
  · exact h post hw
  · rw [← List.append_assoc, ← List.append_assoc, redact_stopper hi, redact_stopper hi, h w hw]

/-- What stands in front of a word does not matter. -/
theorem redact_prepend_congr {p t t' : Line}
    (h : ∀ w, Word L w → w <:+ p → redact L (w ++ t) = redact L (w ++ t')) :
    redact L (p ++ t) = redact L (p ++ t') := by
  rcases exists_last_word (L := L) p with hp | ⟨u, i, w, rfl, hi, hw⟩
  · exact h p hp List.suffix_rfl
  · have hsuffix : w <:+ u ++ i :: w := ⟨u ++ [i], by simp⟩
    rw [List.append_assoc, List.append_assoc, List.cons_append, List.cons_append,
      redact_stopper hi, redact_stopper hi, h w hw hsuffix]

/-- Two lines with other values at the places that are redacted.  A value ends before the
first white space or byte that is no character, so such a byte and what follows it are not
hidden; a keyword in capitals counts where the locale pairs its letters (`Spelled`); and
`credential` may not stand behind a hexadecimal digit. -/
inductive Same (L : Locale) : Line → Line → Prop where
  | refl (line : Line) : Same L line line
  | trans {l₁ l₂ l₃ : Line} (h : Same L l₁ l₂) (h' : Same L l₂ l₃) : Same L l₁ l₃
  /-- A MAC address or a UUID that ends at `credential` takes the `c` with it. -/
  | value {s : String} {p k v v' : Line} {x : Item} (hk : Key L s k x)
      (hcut : s = "credential" → ∀ u a, p = u ++ [a] → a.is xdigit = false)
      (hv : Word L v) (hv' : Word L v') (post : Line) :
      Same L (p ++ (k ++ [x] ++ v ++ post)) (p ++ (k ++ [x] ++ v' ++ post))
  | query {p w v v' : Line} (hw : Matches (urlQuery L).head w) (hv : Word L v) (hv' : Word L v')
      (hne : v ≠ []) (hne' : v' ≠ []) (post : Line) :
      Same L (p ++ (w ++ [.char '?'] ++ v ++ post)) (p ++ (w ++ [.char '?'] ++ v' ++ post))

/-- **One line**: it comes out the same whatever the values are. -/
theorem redact_hides {l l' : Line} (h : Same L l l') : redact L l = redact L l' := by
  induction h with
  | refl line => rfl
  | trans _ _ ih ih' => exact ih.trans ih'
  | @value s p k v v' x hk hcut hv hv' post =>
      refine redact_prepend_congr fun w hw hsuffix => ?_
      rw [← List.append_assoc w (k ++ [x] ++ v), ← List.append_assoc w (k ++ [x] ++ v')]
      refine redact_append_congr (fun u hu => ?_) post
      obtain ⟨c, hc⟩ := hk.hides hw fun hs u a hwa => by
        obtain ⟨p', rfl⟩ := hsuffix
        exact hcut hs (p' ++ u) a (by rw [hwa, List.append_assoc])
      have hjoin : ∀ v, w ++ (k ++ [x] ++ v) ++ u = w ++ k ++ [x] ++ (v ++ u) := fun v => by simp
      rw [hjoin, hjoin, hc _ (List.forall_mem_append.mpr ⟨hv, hu⟩),
        hc _ (List.forall_mem_append.mpr ⟨hv', hu⟩)]
  | @query p q v v' hq hv hv' hne hne' post =>
      refine redact_prepend_congr fun w hw _ => ?_
      rw [← List.append_assoc w (q ++ [Item.char '?'] ++ v),
        ← List.append_assoc w (q ++ [Item.char '?'] ++ v')]
      refine redact_append_congr (fun u hu => ?_) post
      obtain ⟨c, hc⟩ := hides_query hw hq
      have hjoin : ∀ v, w ++ (q ++ [.char '?'] ++ v) ++ u = w ++ q ++ [.char '?'] ++ (v ++ u) :=
        fun v => by simp
      rw [hjoin, hjoin, hc _ (List.forall_mem_append.mpr ⟨hv, hu⟩) (by simp [hne]),
        hc _ (List.forall_mem_append.mpr ⟨hv', hu⟩) (by simp [hne'])]

/-! ## addresses are gone -/

theorem Address.clean_text {s : Subst Item} {n : Nat} {sep : Char} (A : Address s n sep)
    {str : String} (hsep : sep ∉ str.toList) : Clean s.pattern (text str) := by
  intro m hm hmatch
  obtain ⟨u, r, rfl, -⟩ := A.front m hmatch
  obtain ⟨c, hc, hi⟩ := List.mem_map.mp (hm.subset (by simp : Item.char sep ∈ _))
  exact hsep (Item.char.inj hi ▸ hc)

theorem Address.not_mem {s : Subst Item} {n : Nat} {sep : Char} (A : Address s n sep) {x : Char}
    (hx : (xdigit x || x == sep) = false) (m : Line) (hm : Matches s.pattern m) :
    .char x ∉ m := fun hmem => by
  have h := A.spans.forall_mem hm _ hmem
  rw [Item.is_char, hx] at h
  cases h

/-- The rule leaves no MAC address. -/
theorem clean_mac (t : Line) : Clean mac.pattern (mac.subst t) :=
  Subst.clean_subst_self rfl (address_mac.not_mem (by decide)) (address_mac.not_mem (by decide))
    (fun _ _ => ⟨[], text "REDACTED-MAC", rfl, List.prefix_rfl, address_mac.clean_text (by decide)⟩)
    t

/-- The rule leaves no UUID. -/
theorem clean_uuid (t : Line) : Clean uuid.pattern (uuid.subst t) :=
  Subst.clean_subst_self rfl (address_uuid.not_mem (by decide)) (address_uuid.not_mem (by decide))
    (fun _ _ => ⟨[], text "REDACTED-UUID", rfl, List.prefix_rfl, clean_of_tails (by decide)⟩)
    t

/-- The rule for UUIDs makes no address. -/
theorem Address.clean_uuid {s : Subst Item} {n : Nat} {sep : Char} (A : Address s n sep)
    (hx : (xdigit '[' || '[' == sep) = false) (hz : (xdigit ']' || ']' == sep) = false)
    (hsep : sep ∉ "REDACTED-UUID".toList) {t : Line} (h : Clean s.pattern t) :
    Clean s.pattern (uuid.subst t) :=
  Subst.clean_subst (A.not_mem hx) (A.not_mem hz)
    (fun _ _ => ⟨[], text "REDACTED-UUID", rfl, List.nil_prefix, A.clean_text hsep⟩) h

/-- Nor does a rule for keywords. -/
theorem Address.clean_assigned {s : Subst Item} {n : Nat} {sep : Char} (A : Address s n sep)
    (hx : (xdigit '=' || '=' == sep) = false) (hz : (xdigit ']' || ']' == sep) = false)
    (hsep : sep ∉ "[REDACTED".toList) {words : List String} (hwords : ∀ w ∈ words, Letters w)
    {t : Line} (h : Clean s.pattern t) :
    Clean s.pattern ((assigned L words hwords).subst.subst t) := by
  refine Subst.clean_subst (A.not_mem hx) (A.not_mem hz) (fun m hm => ?_) h
  obtain ⟨w, x, q, rfl, hw, hmark, -⟩ := Behind.matches_subst.mp hm
  exact ⟨w, text "[REDACTED", Behind.replace_subst hw hmark, List.prefix_append w _,
    A.clean_text hsep⟩

/-- **One line**: no address is left in it. -/
theorem redact_clean (line : Line) :
    Clean mac.pattern (redact L line) ∧ Clean uuid.pattern (redact L line) := by
  constructor
  · exact address_mac.clean_assigned (by decide) (by decide) (by decide) _
      (address_mac.clean_assigned (by decide) (by decide) (by decide) _
        (address_mac.clean_uuid (by decide) (by decide) (by decide) (clean_mac _)))
  · exact address_uuid.clean_assigned (by decide) (by decide) (by decide) _
      (address_uuid.clean_assigned (by decide) (by decide) (by decide) _ (clean_uuid _))

/-! ## the report -/

/-- What the script writes: lines of its own, or a command with what it has printed. -/
inductive Part where
  | echo (lines : List Line)
  | capture (label : String) (result : List Line) (status : Nat)
  | unavailable (label command : String)

/-- `capture` redacts what the command has printed. -/
def Part.lines (L : Locale) : Part → List Line
  | echo lines => lines
  | capture label result status =>
      [[], text ("### " ++ label)] ++ result.map (redact L) ++
        [text ("COMMAND_STATUS=" ++ toString status)]
  | unavailable label command =>
      [[], text ("### " ++ label), text ("UNAVAILABLE: command not installed: " ++ command)]

/-- The published file: the collected lines through `redact_stream` once more. -/
def report (L : Locale) (parts : List Part) : List Line :=
  (parts.flatMap (Part.lines L)).map (redact L)

/-- Parts with other values at the places that are redacted. -/
inductive Part.Same (L : Locale) : Part → Part → Prop where
  | echo {lines lines' : List Line} (h : List.Forall₂ (Diagnostics.Same L) lines lines') :
      Same L (.echo lines) (.echo lines')
  | capture {result result' : List Line} (label : String) (status : Nat)
      (h : List.Forall₂ (Diagnostics.Same L) result result') :
      Same L (.capture label result status) (.capture label result' status)
  | unavailable (label command : String) :
      Same L (.unavailable label command) (.unavailable label command)

theorem map_redact_eq {lines lines' : List Line}
    (h : List.Forall₂ (Same L) lines lines') : lines.map (redact L) = lines'.map (redact L) := by
  induction h with
  | nil => rfl
  | cons hline _ ih => rw [List.map_cons, List.map_cons, redact_hides hline, ih]

/-- A part of the report comes out the same. -/
theorem Part.Same.redact_lines {p p' : Part} (h : Part.Same L p p') :
    (p.lines L).map (redact L) = (p'.lines L).map (redact L) := by
  cases h with
  | echo h => exact map_redact_eq h
  | capture label status h => rw [Part.lines, Part.lines, map_redact_eq h]
  | unavailable => rfl

/-- The report does not depend on what stands behind the keywords and in the queries,
with the three exceptions that `Same` makes. -/
theorem report_hides {parts parts' : List Part} (h : List.Forall₂ (Part.Same L) parts parts') :
    report L parts = report L parts' := by
  rw [report, report, List.map_flatMap, List.map_flatMap]
  induction h with
  | nil => rfl
  | cons hpart _ ih => rw [List.flatMap_cons, List.flatMap_cons, hpart.redact_lines, ih]

theorem report_hides_psk :
    report .posix [.capture "Wi-Fi" [text "wlan0 " ++
        (text "PSK" ++ [.char '='] ++ text "hunter2" ++ text " up")] 0] =
      report .posix [.capture "Wi-Fi" [text "wlan0 " ++
        (text "PSK" ++ [.char '='] ++ text "swordfish" ++ text " up")] 0] :=
  report_hides (.cons (.capture "Wi-Fi" 0 (.cons (.value (s := "psk")
    ⟨by decide, spelled_of_paired (forall_of_all (by decide)) (by decide)
      (.cons (.inr rfl) (.cons (.inr rfl) (.cons (.inr rfl) .nil))), .inl rfl⟩
    (fun h => absurd h (by decide)) (word_text (forall_of_all (by decide)))
    (word_text (forall_of_all (by decide))) (text " up")) .nil)) .nil)

/-- In a Turkish locale `SSID` is not `ssid`. -/
example : redact .turkish (text "SSID=x") = text "SSID=x" := by decide

/-- A byte that is no character ends the value: what follows is redacted on its own. -/
example (b : UInt8) (secret : Line) : redact L (text "psk=" ++ .byte b :: secret) =
    redact L (text "psk=") ++ .byte b :: redact L secret := redact_stopper rfl _ _

/-- The address in front takes the `c` of `credential`. -/
example : mac.subst (text "00:16:3e:0a:4f:bcredential=x") =
    text "[REDACTED-MAC]redential=x" := by decide

/-- No part of a line of the report is a MAC address or a UUID. -/
theorem report_clean (L : Locale) (parts : List Part) :
    ∀ line ∈ report L parts, Clean mac.pattern line ∧ Clean uuid.pattern line :=
  List.forall_mem_map.mpr fun line _ => redact_clean line

theorem report_clean_ether :
    Clean mac.pattern (text "[REDACTED-MAC]") ∧ Clean uuid.pattern (text "[REDACTED-MAC]") :=
  report_clean .posix [.echo [text "00:16:3e:0a:4f:b1"]] _ (by decide)

end SushidaOs.Diagnostics
