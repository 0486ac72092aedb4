import Mathlib.Tactic.NormNum
import SushidaOs.Binary64
import SushidaOs.Contracts.Report
import SushidaOs.Decimal
import SushidaOs.JsonLoads
import SushidaOs.Regex

/-!
# SushidaOs.Contracts.TimeoutDrift

The comparison of the contract's timeouts with the literals in the sources
(`_TIMEOUT_ADAPTERS`, `_num_pattern`, `_expect_pattern` and `_drift_timeouts` of
`tools/check-contracts.py`).

The patterns are given as `re` parses them: an adapter has the part of its
template before `{value}` and what is behind it.

A contract number is what the contract writes.  Without fraction and exponent it
is an `int`, else the nearest double, and its pattern is made from that.
-/

namespace SushidaOs

open PyStr

namespace Contracts

/-- `\w` of Python. -/
structure WordChars where
  isWord : CodePoint → Bool
  isWord_ascii : ∀ c : CodePoint, c.val < 0x80 →
    isWord c = ((0x30 ≤ c.val && c.val ≤ 0x39) || (0x41 ≤ c.val && c.val ≤ 0x5a) || c = 0x5f ||
      (0x61 ≤ c.val && c.val ≤ 0x7a))

/-! ## the adapters -/

/-- `\s*` -/
def spaces : Re CodePoint := .run true none CodePoint.isSpace

/-- `name\s*=\s*` -/
def assignment (name : String) : Re CodePoint :=
  .seq (.word (lit name)) (.seq spaces (.seq (.word (lit "=")) spaces))

/-- What is behind `{value}`. -/
inductive AdapterEnd where
  | boundary
  | quote
  deriving DecidableEq, Repr

/-- An entry of `_TIMEOUT_ADAPTERS`. -/
structure TimeoutAdapter where
  field : PyStr
  source : PyStr
  front : Re CodePoint
  last : AdapterEnd
  minCount : Nat

/-- `Setting("name",[^)]*\bdefault=` -/
def settingDefault (W : WordChars) (name : String) : Re CodePoint :=
  .seq (.word (lit "Setting(\"" ++ lit name ++ lit "\","))
    (.seq (.run true none fun c => c != 0x29) (.seq (.edge W.isWord) (.word (lit "default="))))

/-- `_TIMEOUT_ADAPTERS`. -/
def timeoutAdapters (W : WordChars) : List TimeoutAdapter :=
  [ { field := lit "wifi_command_default_timeout_seconds", source := lit "wifi_nmcli",
      front := assignment "COMMAND_TIMEOUT_SECONDS", last := .boundary, minCount := 1 },
    { field := lit "wifi_activation_wait_seconds", source := lit "wifi_nmcli",
      front := .seq (.word (lit "\"--wait\",")) (.seq spaces (.word (lit "\""))),
      last := .quote, minCount := 2 },
    { field := lit "wifi_activation_process_timeout_seconds", source := lit "wifi_nmcli",
      front := .seq (.word (lit "\"up\""))
        (.seq (.run false (some 160) fun _ => true) (.word (lit "timeout="))),
      last := .boundary, minCount := 2 },
    { field := lit "restore_backoff_min_seconds", source := lit "wifi_restore",
      front := assignment "BACKOFF_MIN", last := .boundary, minCount := 1 },
    { field := lit "restore_backoff_max_seconds", source := lit "wifi_restore",
      front := assignment "BACKOFF_MAX", last := .boundary, minCount := 1 },
    { field := lit "restore_max_retries", source := lit "wifi_restore",
      front := assignment "MAX_RETRIES", last := .boundary, minCount := 1 },
    { field := lit "restore_deadline_seconds", source := lit "wifi_restore",
      front := .seq (.word (lit "deadline")) (.seq spaces (.seq (.word (lit "=")) (.seq spaces
        (.seq (.alt (.word (lit "time.")) .empty) (.seq (.word (lit "monotonic()"))
          (.seq spaces (.seq (.word (lit "+")) spaces))))))),
      last := .boundary, minCount := 1 },
    { field := lit "nav_poll_interval_seconds", source := lit "navwatch",
      front := assignment "DEFAULT_POLL_SECONDS", last := .boundary, minCount := 1 },
    { field := lit "nav_cooldown_seconds", source := lit "navwatch",
      front := assignment "DEFAULT_COOLDOWN_SECONDS", last := .boundary, minCount := 1 },
    { field := lit "http_read_timeout_seconds", source := lit "wifi_web",
      front := assignment "REQUEST_READ_TIMEOUT_SECONDS", last := .boundary, minCount := 1 },
    { field := lit "http_max_request_bytes", source := lit "wifi_web",
      front := assignment "MAX_REQUEST_BYTES", last := .boundary, minCount := 1 },
    { field := lit "session_audio_timeout_seconds", source := lit "session",
      front := .seq (.word (lit "_raw_at=")) .empty, last := .boundary, minCount := 1 },
    { field := lit "network_check_interval_seconds", source := lit "config",
      front := settingDefault W "NETWORK_CHECK_INTERVAL_SECONDS", last := .boundary,
      minCount := 1 },
    { field := lit "network_setup_grace_seconds", source := lit "config",
      front := settingDefault W "NETWORK_SETUP_GRACE_SECONDS", last := .boundary,
      minCount := 1 } ]

/-- `template.replace("{value}", value)`. -/
def TimeoutAdapter.pattern (W : WordChars) (a : TimeoutAdapter) (value : Re CodePoint) :
    Re CodePoint :=
  .seq a.front (.seq value (match a.last with
    | .boundary => .edge W.isWord
    | .quote => .word (lit "\"")))

/-- `(?:n|n\.0)` -/
def integerPattern (n : Int) : Re CodePoint :=
  .alt (.word (ofInt n)) (.word (ofInt n ++ lit ".0"))

/-- `str(value)`. -/
def strOf (repr : PyValue → PyStr) : PyValue → PyStr
  | .str s => s
  | value => repr value

/-- `_num_pattern`; a `float` that is no integer is what `repr` writes for it. -/
def numPattern (repr : PyValue → PyStr) : PyValue → Re CodePoint
  | .int n => integerPattern n
  | .float (.finite q) =>
      if q.den = 1 then integerPattern q.num else .word (strOf repr (.float (.finite q)))
  | value => .word (strOf repr value)

/-- `_expect_pattern`. -/
def expectPattern (texts labels : List (PyStr × PyStr)) (key : PyStr) (pattern : Re CodePoint)
    (code : ErrorCode) (field message : PyStr) (minCount : Nat) : List ContractError :=
  match texts.lookup key with
  | none => []
  | some text =>
      let found := (pattern.findAll 0 [] text).length
      if found < minCount then
        [⟨code, lit "runtime", field, (labels.lookup key).getD key,
          message ++ lit " (" ++ ofNat found ++ lit " match(es), need " ++ ofNat minCount ++
            lit ")"⟩]
      else []

/-- The errors of `_drift_timeouts` for one adapter. -/
def adapterErrors (repr : PyValue → PyStr) (W : WordChars) (timeouts : List (PyStr × PyValue))
    (texts labels : List (PyStr × PyStr)) (a : TimeoutAdapter) : List ContractError :=
  match PyValue.get a.field timeouts with
  | none => []
  | some .none => []
  | some value =>
      expectPattern texts labels a.source (a.pattern W (numPattern repr value)) .driftTimeout
        (lit "timeouts." ++ a.field)
        (lit "production literal for " ++ a.field ++ lit " != contract " ++ repr value)
        a.minCount

/-- `_drift_timeouts`. -/
def driftTimeouts (repr : PyValue → PyStr) (W : WordChars) (timeouts : List (PyStr × PyValue))
    (texts labels : List (PyStr × PyStr)) : List ContractError :=
  (timeoutAdapters W).flatMap (adapterErrors repr W timeouts texts labels)

/-! ## contract numbers -/

/-- `float` of a decimal: the nearest double, or an infinity. -/
def nearestFloat (q : ℚ) : PyFloat :=
  if Binary64.Overflows q then .infinity (decide (q < 0)) else .finite (Binary64.nearest q)

/-- A number as the contract writes it: without fraction and exponent, or a decimal. -/
inductive ContractNumber where
  | int (n : Int)
  | decimal (q : ℚ)
  deriving DecidableEq, Repr

namespace ContractNumber

def value : ContractNumber → ℚ
  | int n => n
  | decimal q => q

/-- What `json.loads` makes of it. -/
def loaded : ContractNumber → PyValue
  | int n => .int n
  | decimal q => .float (nearestFloat q)

/-- The integer that is loaded. -/
def whole (v : ContractNumber) : Option Int :=
  match v.loaded with
  | .int n => some n
  | .float (.finite q) => if q.den = 1 then some q.num else none
  | _ => none

end ContractNumber

/-! ## decimal literals -/

/-- `[0-9]` -/
def isDigit (c : CodePoint) : Bool := 0x30 ≤ c.val && c.val ≤ 0x39

/-- A decimal literal: digits, and maybe a point and more digits. -/
structure Literal where
  whole : List Nat
  fraction : Option (List Nat)
  whole_ne_nil : whole ≠ []
  whole_lt : ∀ d ∈ whole, d < 10
  fraction_ne_nil : fraction ≠ some []
  fraction_lt : ∀ ds, fraction = some ds → ∀ d ∈ ds, d < 10

/-- The number that digits write. -/
def digitsValue (ds : List Nat) : Nat := ds.foldl (fun n d => 10 * n + d) 0

namespace Literal

/-- The point and the digits behind it. -/
def fractionText (w : Literal) : PyStr :=
  match w.fraction with
  | none => []
  | some ds => 0x2e :: ds.map digitChar

def text (w : Literal) : PyStr := w.whole.map digitChar ++ w.fractionText

def value (w : Literal) : ℚ :=
  digitsValue w.whole +
    match w.fraction with
    | none => 0
    | some ds => (digitsValue ds : ℚ) / 10 ^ ds.length

end Literal

/-- `\d+(?:\.\d+)?`, any literal in the place of the value. -/
def decimal : Re CodePoint :=
  .seq (.plus isDigit) (.alt (.seq (.char (· == 0x2e)) (.plus isDigit)) .empty)

/-- A number starts here, with or without a sign; `inf` is one. -/
def startsNumber (s : PyStr) : Bool :=
  (s.head?.any fun c => isDigit c || c == 0x2d) || (lit "inf").isPrefixOf s

/-- The construct of an adapter occurs as often as required, and wherever it
stands before a number, this is the literal `w` up to a line feed, a comma or a
closing parenthesis. -/
structure Occurs (W : WordChars) (a : TimeoutAdapter) (text : PyStr) (w : Literal) : Prop where
  count : ((a.pattern W decimal).findAll 0 [] text).length = a.minCount
  literal : ∀ c d : Cursor CodePoint, c.before.reverse ++ c.after = text → d ∈ a.front.ends c →
    startsNumber d.after = true →
    ∃ f rest, d.after = w.text ++ f :: rest ∧ (f = 0x0a ∨ f = 0x2c ∨ f = 0x29)

/-- What `repr` writes for a `float` that is no integer: it starts with a digit, a sign or
`inf`, ends with a digit or the `f` of `inf`, has no end of a literal inside, and `float`
reads it back.  An infinity is `inf`. -/
structure WritesFloat (repr : PyValue → PyStr) (x : PyFloat) : Prop where
  starts : startsNumber (repr (.float x)) = true
  ends : ∃ front c, (isDigit c || c == 0x66) = true ∧ repr (.float x) = front ++ [c]
  inside : ∀ c ∈ repr (.float x), c ≠ 0x0a ∧ c ≠ 0x2c ∧ c ≠ 0x29
  reads : ∀ w : Literal, repr (.float x) = w.text → nearestFloat w.value = x
  infinite : ∀ negative, x = .infinity negative →
    repr (.float x) = if negative then lit "-inf" else lit "inf"

/-- The contract number is loaded as an integer that is the whole part of the literal, and
the literal is another number: it has a fraction, or the contract number is rounded. -/
def WholePartOnly (v : ContractNumber) (w : Literal) : Prop :=
  ∃ n : Nat, v.whole = some (n : Int) ∧ w.whole = decimalDigits n ∧ w.value ≠ v.value

/-- The literal is what `repr` writes for the double nearest to the contract number, which
is another number. -/
def RoundedText (repr : PyValue → PyStr) (v : ContractNumber) (w : Literal) : Prop :=
  v.whole = none ∧ repr v.loaded = w.text ∧ w.value ≠ v.value

/-! ## the characters of literals -/

variable (W : WordChars)

theorem isDigit_digitChar {d : Nat} (h : d < 10) : isDigit (digitChar d) = true := by
  have hval := digitChar_val h
  simp only [isDigit, Bool.and_eq_true, decide_eq_true_eq]
  omega

theorem isWord_of_isDigit {c : CodePoint} (h : isDigit c = true) : W.isWord c = true := by
  rw [isDigit, Bool.and_eq_true, decide_eq_true_eq, decide_eq_true_eq] at h
  rw [W.isWord_ascii c (by omega)]
  simp [h]

/-- Nothing that stands behind a literal is a character of a word. -/
theorem isWord_end {f : CodePoint} (h : f = 0x0a ∨ f = 0x2c ∨ f = 0x29 ∨ f = 0x2e) :
    W.isWord f = false := by
  rcases h with rfl | rfl | rfl | rfl
  · rw [W.isWord_ascii _ (by decide)]; decide
  · rw [W.isWord_ascii _ (by decide)]; decide
  · rw [W.isWord_ascii _ (by decide)]; decide
  · rw [W.isWord_ascii _ (by decide)]; decide

/-- The end of a word is the end of a number. -/
theorem isDigit_of_not_isWord {c : CodePoint} (h : W.isWord c = false) : isDigit c = false := by
  cases hc : isDigit c with
  | false => rfl
  | true => rw [isWord_of_isDigit W hc] at h; contradiction

/-- Digits are read back from their characters. -/
theorem map_digitChar_inj {ds es : List Nat} (hds : ∀ d ∈ ds, d < 10) (hes : ∀ d ∈ es, d < 10)
    (h : ds.map digitChar = es.map digitChar) : ds = es := by
  have hback : ∀ l : List Nat, (∀ d ∈ l, d < 10) →
      (l.map digitChar).map (fun c => c.val - 0x30) = l := by
    intro l hl
    rw [List.map_map]
    conv_rhs => rw [← List.map_id l]
    refine List.map_congr_left fun d hd => ?_
    have hval := digitChar_val (hl d hd)
    simp only [Function.comp_apply, id_eq]
    omega
  rw [← hback ds hds, ← hback es hes, h]

theorem isDigit_of_mem_digits {ds : List Nat} (h : ∀ d ∈ ds, d < 10) {c : CodePoint}
    (hc : c ∈ ds.map digitChar) : isDigit c = true := by
  obtain ⟨d, hd, rfl⟩ := List.mem_map.mp hc
  exact isDigit_digitChar (h d hd)

theorem not_isDigit_end {f : CodePoint} (h : f = 0x0a ∨ f = 0x2c ∨ f = 0x29 ∨ f = 0x2e) :
    isDigit f = false := by
  rcases h with rfl | rfl | rfl | rfl <;> decide

/-- The digits in front of something else. -/
theorem takeWhile_digits {ds rest : PyStr} (hds : ∀ c ∈ ds, isDigit c = true)
    (hrest : rest.head?.any isDigit = false) : (ds ++ rest).takeWhile isDigit = ds := by
  rw [List.takeWhile_append_of_pos hds]
  cases rest with
  | nil => rw [List.takeWhile_nil, List.append_nil]
  | cons c rest =>
      have hc : ¬ isDigit c = true := Bool.not_eq_true _ ▸ hrest
      rw [List.takeWhile_cons_of_neg hc, List.append_nil]

theorem head_not_isDigit {s : PyStr} (h : s.head?.any W.isWord = false) :
    s.head?.any isDigit = false := by
  cases s with
  | nil => rfl
  | cons c s => exact isDigit_of_not_isWord W h

namespace Literal

/-- A literal begins with a digit. -/
theorem text_cons (w : Literal) : ∃ d s, d < 10 ∧ w.text = digitChar d :: s := by
  obtain ⟨d, ds, hds⟩ := List.exists_cons_of_ne_nil w.whole_ne_nil
  exact ⟨d, ds.map digitChar ++ w.fractionText, w.whole_lt d (hds ▸ List.mem_cons_self),
    by rw [text, hds]; rfl⟩

/-- A point or the end of the literal follows the whole part. -/
theorem fractionText_stops (w : Literal) {p : CodePoint → Bool}
    (hp : ∀ f : CodePoint, f = 0x0a ∨ f = 0x2c ∨ f = 0x29 ∨ f = 0x2e → p f = false)
    {f : CodePoint} (hf : f = 0x0a ∨ f = 0x2c ∨ f = 0x29) (rest : PyStr) :
    (w.fractionText ++ f :: rest).head?.any p = false := by
  rw [fractionText]
  cases w.fraction with
  | none => exact hp f (hf.imp_right (Or.imp_right .inl))
  | some ds => exact hp 0x2e (by simp)

/-- The whole part are the first digits. -/
theorem takeWhile_whole (w : Literal) {f : CodePoint} (hf : f = 0x0a ∨ f = 0x2c ∨ f = 0x29)
    (rest : PyStr) :
    (w.text ++ f :: rest).takeWhile isDigit = w.whole.map digitChar := by
  rw [text, List.append_assoc]
  exact takeWhile_digits (fun c hc => isDigit_of_mem_digits w.whole_lt hc)
    (w.fractionText_stops (fun _ => not_isDigit_end) hf rest)

/-- A literal is written in one way. -/
theorem value_eq_of_text_eq {w w' : Literal} (h : w.text = w'.text) : w.value = w'.value := by
  have hwhole : w.whole = w'.whole := by
    refine map_digitChar_inj w.whole_lt w'.whole_lt ?_
    rw [← w.takeWhile_whole (.inl rfl) [], h, w'.takeWhile_whole (.inl rfl) []]
  rw [text, text, hwhole] at h
  have hfraction := List.append_cancel_left h
  rw [fractionText, fractionText] at hfraction
  rw [value, value, hwhole]
  cases hw : w.fraction with
  | none =>
      cases hw' : w'.fraction with
      | none => rfl
      | some ds => rw [hw, hw'] at hfraction; contradiction
  | some ds =>
      cases hw' : w'.fraction with
      | none => rw [hw, hw'] at hfraction; contradiction
      | some es =>
          rw [hw, hw'] at hfraction
          rw [map_digitChar_inj (w.fraction_lt ds hw) (w'.fraction_lt es hw')
            (List.cons.inj hfraction).2]

end Literal

/-! ## one place in a source -/

/-- The text of a number up to its end. -/
theorem mem_ends_word_edge {t front : PyStr} {k : CodePoint} (hk : W.isWord k = true)
    (ht : t = front ++ [k]) {c d : Cursor CodePoint}
    (h : d ∈ (Re.seq (.word t) (.edge W.isWord)).ends c) :
    ∃ rest, c.after = t ++ rest ∧ rest.head?.any W.isWord = false := by
  rw [Re.ends, Re.ends_word] at h
  split at h
  · next hprefix =>
      obtain ⟨rest, hrest⟩ := List.isPrefixOf_iff_prefix.mp hprefix
      refine ⟨rest, hrest.symm, ?_⟩
      have hlast : (Cursor.advance c t).before.head?.any W.isWord = true := by
        simp [Cursor.advance, ht, hk]
      have hdrop : (Cursor.advance c t).after = rest := by
        rw [Cursor.advance, ← hrest, List.drop_left]
      rw [List.flatMap_singleton, Re.ends, hlast, hdrop] at h
      cases hword : rest.head?.any W.isWord with
      | false => rfl
      | true => simp [hword] at h
  · simp at h

/-- A word with an edge behind it is matched in one way. -/
theorem ends_word_edge {t front : PyStr} {k : CodePoint} (hk : W.isWord k = true)
    (ht : t = front ++ [k]) {c : Cursor CodePoint} {rest : PyStr}
    (hafter : c.after = t ++ rest) (hrest : rest.head?.any W.isWord = false) :
    (Re.seq (.word t) (.edge W.isWord)).ends c = [c.advance t] := by
  have hprefix : t.isPrefixOf c.after = true :=
    List.isPrefixOf_iff_prefix.mpr ⟨rest, hafter.symm⟩
  have hlast : (Cursor.advance c t).before.head?.any W.isWord = true := by
    simp [Cursor.advance, ht, hk]
  have hdrop : (Cursor.advance c t).after = rest := by
    rw [Cursor.advance, hafter, List.drop_left]
  rw [Re.ends, Re.ends_word, if_pos hprefix, List.flatMap_singleton, Re.ends, hlast, hdrop, hrest]
  rfl

theorem isWord_digitChar {d : Nat} (h : d < 10) : W.isWord (digitChar d) = true :=
  isWord_of_isDigit W (isDigit_digitChar h)

theorem ofNat_concat (n : Nat) : ∃ front d, d < 10 ∧ ofNat n = front ++ [digitChar d] := by
  have hne := decimalDigits_ne_nil n
  refine ⟨(decimalDigits n).dropLast.map digitChar, (decimalDigits n).getLast hne,
    lt_of_mem_decimalDigits (List.getLast_mem hne), ?_⟩
  rw [ofNat, ← List.map_singleton, ← List.map_append, List.dropLast_append_getLast]

/-- An integer ends with a digit. -/
theorem ofInt_concat (n : Int) : ∃ front d, d < 10 ∧ ofInt n = front ++ [digitChar d] := by
  obtain ⟨front, d, hd, htext⟩ := ofNat_concat n.natAbs
  rw [ofInt]
  split
  · exact ⟨0x2d :: front, d, hd, by rw [htext]; rfl⟩
  · exact ⟨front, d, hd, htext⟩

/-- An integer of the contract where its pattern matches. -/
theorem written_of_mem_integerPattern {n : Int} {c d : Cursor CodePoint}
    (h : d ∈ (Re.seq (integerPattern n) (.edge W.isWord)).ends c) :
    ∃ rest, c.after = ofInt n ++ rest ∧ rest.head?.any isDigit = false := by
  rw [Re.ends, integerPattern, Re.ends, List.flatMap_append, List.mem_append] at h
  rcases h with h | h
  · obtain ⟨front, k, hk, htext⟩ := ofInt_concat n
    obtain ⟨rest, hafter, hrest⟩ := mem_ends_word_edge W (isWord_digitChar W hk) htext h
    exact ⟨rest, hafter, head_not_isDigit W hrest⟩
  · have htext : ofInt n ++ lit ".0" = (ofInt n ++ [0x2e]) ++ [digitChar 0] := by
      rw [List.append_assoc]
      rfl
    obtain ⟨rest, hafter, -⟩ := mem_ends_word_edge W (isWord_digitChar W (by omega)) htext h
    exact ⟨lit ".0" ++ rest, by rw [hafter, List.append_assoc], rfl⟩

/-- The pattern of a contract number is that of an integer, or the text of a `float`. -/
theorem numPattern_of_whole {repr : PyValue → PyStr} {v : ContractNumber} {n : Int}
    (h : v.whole = some n) : numPattern repr v.loaded = integerPattern n := by
  rw [ContractNumber.whole] at h
  split at h
  · next hint =>
      rw [hint, numPattern, Option.some.inj h]
  · next q hfloat =>
      rw [hfloat, numPattern]
      split at h
      · next hden => rw [if_pos hden, Option.some.inj h]
      · contradiction
  · contradiction

/-- A number that is no integer is looked for as the text of its `float`. -/
theorem numPattern_of_text {repr : PyValue → PyStr} {v : ContractNumber} (h : v.whole = none) :
    ∃ x, v.loaded = .float x ∧ numPattern repr v.loaded = .word (repr (.float x)) := by
  cases v with
  | int n => contradiction
  | decimal q =>
      rw [ContractNumber.whole, ContractNumber.loaded] at h
      refine ⟨nearestFloat q, rfl, ?_⟩
      rw [ContractNumber.loaded]
      cases hx : nearestFloat q with
      | finite p =>
          rw [hx] at h
          by_cases hden : p.den = 1
          · simp [hden] at h
          · rw [numPattern, if_neg hden]
            rfl
      | infinity negative => rfl
      | nan => rfl

/-- What stands where the pattern of a contract number matches. -/
inductive Written (repr : PyValue → PyStr) (v : ContractNumber) : PyStr → Prop where
  | integer {n : Int} {rest : PyStr} (whole : v.whole = some n)
      (stops : rest.head?.any isDigit = false) : Written repr v (ofInt n ++ rest)
  | float {x : PyFloat} {rest : PyStr} (whole : v.whole = none) (loaded : v.loaded = .float x)
      (written : WritesFloat repr x) (stops : rest.head?.any W.isWord = false) :
      Written repr v (repr (.float x) ++ rest)

/-- A `float` ends with a character of a word. -/
theorem WritesFloat.ends_isWord {repr : PyValue → PyStr} {x : PyFloat} (h : WritesFloat repr x) :
    ∃ front c, W.isWord c = true ∧ repr (.float x) = front ++ [c] := by
  obtain ⟨front, c, hc, htext⟩ := h.ends
  refine ⟨front, c, ?_, htext⟩
  rcases Bool.or_eq_true_iff.mp hc with hdigit | hf
  · exact isWord_of_isDigit W hdigit
  · rw [beq_iff_eq.mp hf, W.isWord_ascii _ (by decide)]
    decide

/-- What the pattern of a number matches is a text of that number. -/
theorem written_of_match {repr : PyValue → PyStr} {v : ContractNumber}
    (hfloat : ∀ x, v.whole = none → v.loaded = .float x → WritesFloat repr x)
    {c d : Cursor CodePoint}
    (h : d ∈ (Re.seq (numPattern repr v.loaded) (.edge W.isWord)).ends c) :
    Written W repr v c.after := by
  cases hwhole : v.whole with
  | some n =>
      rw [numPattern_of_whole hwhole] at h
      obtain ⟨rest, hafter, hrest⟩ := written_of_mem_integerPattern W h
      rw [hafter]
      exact .integer hwhole hrest
  | none =>
      obtain ⟨x, hx, hpattern⟩ := @numPattern_of_text repr _ hwhole
      rw [hpattern] at h
      have hwrites := hfloat x hwhole hx
      obtain ⟨front, k, hk, htext⟩ := hwrites.ends_isWord W
      obtain ⟨rest, hafter, hrest⟩ := mem_ends_word_edge W hk htext h
      rw [hafter]
      exact .float hwhole hx hwrites hrest

theorem startsNumber_digitChar {d : Nat} (h : d < 10) (s : PyStr) :
    startsNumber (digitChar d :: s) = true := by
  simp [startsNumber, isDigit_digitChar h]

/-- A number that starts here starts here with anything behind it. -/
theorem startsNumber_append {s : PyStr} (h : startsNumber s = true) (rest : PyStr) :
    startsNumber (s ++ rest) = true := by
  rw [startsNumber, Bool.or_eq_true] at h ⊢
  refine h.imp (fun hhead => ?_) fun hinf => ?_
  · cases s with
    | nil => contradiction
    | cons c s => exact hhead
  · rw [List.isPrefixOf_iff_prefix] at hinf ⊢
    exact hinf.trans (List.prefix_append s rest)

/-- A text of a number begins like one. -/
theorem Written.startsNumber {repr : PyValue → PyStr} {v : ContractNumber} {s : PyStr}
    (h : Written W repr v s) : startsNumber s = true := by
  cases h with
  | @integer n rest =>
      obtain ⟨d, ds, hd, hdigits⟩ := ofNat_cons n.natAbs
      rw [ofInt]
      split
      · rfl
      · rw [hdigits]
        exact startsNumber_digitChar hd _
  | float _ _ hwrites => exact startsNumber_append hwrites.starts _

/-- An integer that stands where a literal does is its whole part. -/
theorem whole_of_ofInt {n : Int} {w : Literal} {f : CodePoint}
    (hf : f = 0x0a ∨ f = 0x2c ∨ f = 0x29) {rest rest' : PyStr}
    (h : w.text ++ f :: rest = ofInt n ++ rest') (hstops : rest'.head?.any isDigit = false) :
    ∃ m : Nat, n = m ∧ w.whole = decimalDigits m := by
  have hwhole := w.takeWhile_whole hf rest
  rw [h, ofInt] at hwhole
  rw [ofInt] at h
  split at h
  · -- A literal has no sign.
    obtain ⟨d, s, hd, htext⟩ := w.text_cons
    rw [htext] at h
    have hval := digitChar_val hd
    rw [(List.cons.inj h).1] at hval
    simp at hval
    omega
  · next hsign =>
      rw [if_neg hsign, takeWhile_digits (fun c hc => ?_) hstops] at hwhole
      · exact ⟨n.natAbs, by omega, map_digitChar_inj w.whole_lt
          (fun d hd => lt_of_mem_decimalDigits hd) hwhole.symm⟩
      · exact isDigit_of_mem_digits (fun d hd => lt_of_mem_decimalDigits hd) hc

/-- The digits of the whole part alone are a literal too. -/
def Literal.integer (w : Literal) : Literal where
  whole := w.whole
  fraction := none
  whole_ne_nil := w.whole_ne_nil
  whole_lt := w.whole_lt
  fraction_ne_nil := nofun
  fraction_lt := nofun

/-- The double of an integer is an integer. -/
theorem den_of_nearestFloat {n : Nat} {q : ℚ} (h : nearestFloat n = .finite q) : q.den = 1 := by
  rw [nearestFloat] at h
  split at h
  · contradiction
  · obtain ⟨m, hm⟩ := Binary64.nearest_intCast n
    rw [Int.cast_natCast] at hm
    cases h
    rw [hm, Rat.den_intCast]

/-- What `repr` writes for a `float` that is no integer is not all digits. -/
theorem WritesFloat.not_integer {repr : PyValue → PyStr} {v : ContractNumber} {x : PyFloat}
    (h : WritesFloat repr x) (hwhole : v.whole = none) (hx : v.loaded = .float x) (w : Literal) :
    repr (.float x) ≠ w.integer.text := by
  intro htext
  have hreads := h.reads w.integer htext
  rw [Literal.value, Literal.integer, add_zero] at hreads
  rw [Literal.text, Literal.fractionText, Literal.integer, List.append_nil] at htext
  cases x with
  | finite q => simp [ContractNumber.whole, hx, den_of_nearestFloat hreads] at hwhole
  | infinity negative =>
      have hn : (0x6e : CodePoint) ∈ repr (.float (.infinity negative)) := by
        rw [h.infinite negative rfl]
        cases negative <;> decide
      rw [htext] at hn
      exact absurd (isDigit_of_mem_digits w.whole_lt hn) (by decide)
  | nan =>
      rw [nearestFloat] at hreads
      split at hreads <;> contradiction

/-- What `repr` writes where a literal stands is the literal. -/
theorem text_of_repr {repr : PyValue → PyStr} {v : ContractNumber} {x : PyFloat}
    (hwhole : v.whole = none) (hx : v.loaded = .float x) (hwrites : WritesFloat repr x)
    {w : Literal} {f : CodePoint} (hf : f = 0x0a ∨ f = 0x2c ∨ f = 0x29) {rest rest' : PyStr}
    (h : w.text ++ f :: rest = repr (.float x) ++ rest')
    (hstops : rest'.head?.any W.isWord = false) :
    repr (.float x) = w.text := by
  have hprefix : ∃ s, w.text = repr (.float x) ++ s ∧ s.head?.any W.isWord = false := by
    rcases List.append_eq_append_iff.mp h with ⟨s, hs, hrest⟩ | ⟨s, hs, hrest⟩
    · cases s with
      | nil => exact ⟨[], by rw [hs, List.append_nil, List.append_nil], rfl⟩
      | cons c s =>
          have hinside := hwrites.inside c (by rw [hs]; simp)
          rw [← (List.cons.inj hrest).1] at hinside
          tauto
    · cases s with
      | nil => exact ⟨[], hs, rfl⟩
      | cons c s => exact ⟨c :: s, hs, by rw [hrest] at hstops; exact hstops⟩
  obtain ⟨s, hs, hend⟩ := hprefix
  cases s with
  | nil => rw [hs, List.append_nil]
  | cons c s =>
      -- Otherwise the number ends at the point and is an integer.
      have hc : isDigit c = false := isDigit_of_not_isWord W hend
      have htext := hs
      rw [Literal.text, Literal.fractionText] at htext
      cases hfraction : w.fraction with
      | none =>
          rw [hfraction, List.append_nil] at htext
          have hmem : c ∈ w.whole.map digitChar := by rw [htext]; simp
          rw [isDigit_of_mem_digits w.whole_lt hmem] at hc
          contradiction
      | some ds =>
          rw [hfraction] at htext
          have hfront : c ∉ w.whole.map digitChar := fun hmem => by
            rw [isDigit_of_mem_digits w.whole_lt hmem] at hc
            contradiction
          have hrest : c ∉ ds.map digitChar := fun hmem => by
            rw [isDigit_of_mem_digits (w.fraction_lt ds hfraction) hmem] at hc
            contradiction
          have hrepr := ((List.append_cons_inj_of_notMem hfront hrest).mp htext).1
          refine absurd ?_ (hwrites.not_integer hwhole hx w)
          rw [Literal.text, Literal.fractionText, Literal.integer, List.append_nil, hrepr]

/-- Where the pattern of the contract number matches, the literal is the number or one that
the pattern takes for it. -/
theorem value_or_mistaken {repr : PyValue → PyStr} {v : ContractNumber} {s : PyStr}
    (h : Written W repr v s) {w : Literal} {f : CodePoint} (hf : f = 0x0a ∨ f = 0x2c ∨ f = 0x29)
    {rest : PyStr} (hafter : s = w.text ++ f :: rest) :
    w.value = v.value ∨ WholePartOnly v w ∨ RoundedText repr v w := by
  by_cases heq : w.value = v.value
  · exact .inl heq
  cases h with
  | integer hwhole hstops =>
      obtain ⟨m, rfl, hdigits⟩ := whole_of_ofInt hf hafter.symm hstops
      exact .inr (.inl ⟨m, hwhole, hdigits, heq⟩)
  | float hwhole hx hwrites hstops =>
      have htext := text_of_repr W hwhole hx hwrites hf hafter.symm hstops
      exact .inr (.inr ⟨hwhole, by rw [hx, htext], heq⟩)

/-! ## the number of matches -/

/-- The templates start with a fixed character, which is in no number. -/
theorem front_word {a : TimeoutAdapter} (ha : a ∈ timeoutAdapters W) (hlast : a.last = .boundary) :
    ∃ x xs rest, a.front = .seq (.word (x :: xs)) rest ∧ isDigit x = false ∧ x ≠ 0x2e := by
  simp only [timeoutAdapters, List.mem_cons, List.not_mem_nil, or_false] at ha
  rcases ha with rfl | rfl | rfl | rfl | rfl | rfl | rfl | rfl | rfl | rfl | rfl | rfl | rfl | rfl
  case inr.inl => contradiction
  all_goals exact ⟨_, _, _, rfl, by decide, by decide⟩

/-- No match starts at a digit or a point. -/
theorem ends_pattern_number {a : TimeoutAdapter} (ha : a ∈ timeoutAdapters W)
    (hlast : a.last = .boundary) (value : Re CodePoint) (before after : PyStr) {c : CodePoint}
    (hc : (isDigit c || c == 0x2e) = true) :
    (a.pattern W value).ends ⟨before, c :: after⟩ = [] := by
  obtain ⟨x, xs, rest, hfront, hdigit, hpoint⟩ := front_word W ha hlast
  have hne : (x == c) = false := by
    rw [beq_eq_false_iff_ne]
    rintro rfl
    simp [hdigit, hpoint] at hc
  rw [TimeoutAdapter.pattern, hfront, Re.ends, Re.ends, Re.ends_word, List.isPrefixOf, hne,
    Bool.false_and]
  rfl

/-- A literal ends with a digit. -/
theorem Literal.text_concat (w : Literal) :
    ∃ front d, d < 10 ∧ w.text = front ++ [digitChar d] := by
  have hlast : ∀ ds : List Nat, ds ≠ [] → (∀ d ∈ ds, d < 10) →
      ∃ front d, d < 10 ∧ ds.map digitChar = front ++ [digitChar d] := by
    intro ds hne hlt
    refine ⟨ds.dropLast.map digitChar, ds.getLast hne, hlt _ (List.getLast_mem hne), ?_⟩
    rw [← List.map_singleton, ← List.map_append, List.dropLast_append_getLast]
  rw [text, fractionText]
  cases hfraction : w.fraction with
  | none =>
      obtain ⟨front, d, hd, htext⟩ := hlast w.whole w.whole_ne_nil w.whole_lt
      exact ⟨front, d, hd, by rw [List.append_nil, htext]⟩
  | some ds =>
      obtain ⟨front, d, hd, htext⟩ := hlast ds
        (fun h => w.fraction_ne_nil (by rw [hfraction, h])) (w.fraction_lt ds hfraction)
      refine ⟨w.whole.map digitChar ++ 0x2e :: front, d, hd, ?_⟩
      simp only [htext, List.append_assoc, List.cons_append]

/-- Any literal that stands in the place of the value is matched as a whole. -/
theorem head?_ends_decimal {w : Literal} {f : CodePoint} (hf : f = 0x0a ∨ f = 0x2c ∨ f = 0x29)
    {rest : PyStr} {c : Cursor CodePoint} (hafter : c.after = w.text ++ f :: rest) :
    ((Re.seq decimal (.edge W.isWord)).ends c).head? = some (c.advance w.text) := by
  have hplus : ((Re.plus isDigit).ends c).head? = some (c.advance (w.whole.map digitChar)) := by
    rw [Literal.text, List.append_assoc] at hafter
    exact Re.head?_ends_plus hafter (by simpa using w.whole_ne_nil)
      (fun x hx => isDigit_of_mem_digits w.whole_lt hx)
      (w.fractionText_stops (fun _ => not_isDigit_end) hf rest)
  have hpoint : ∀ x : CodePoint, x = 0x0a ∨ x = 0x2c ∨ x = 0x29 → (x == 0x2e) = false := by
    rintro x (rfl | rfl | rfl) <;> rfl
  have hdecimal : (decimal.ends c).head? = some (c.advance w.text) := by
    refine Re.head?_ends_seq hplus ?_
    have hend : (c.advance (w.whole.map digitChar)).after = w.fractionText ++ f :: rest :=
      Re.after_advance (by rw [hafter, Literal.text, List.append_assoc])
    rw [Literal.text, ← Re.advance_advance]
    cases hfraction : w.fraction with
    | none =>
        have hnil : w.fractionText = [] := by rw [Literal.fractionText, hfraction]
        rw [hnil, List.nil_append] at hend
        have hchar : (Re.char (· == (0x2e : CodePoint))).ends (c.advance (w.whole.map digitChar)) =
            [] := Re.ends_char_nil (by rw [hend]; exact hpoint f hf)
        rw [Re.ends_alt_nil (Re.ends_seq_nil hchar), hnil]
        rfl
    | some ds =>
        have htext : w.fractionText = [0x2e] ++ ds.map digitChar := by
          rw [Literal.fractionText, hfraction]
          rfl
        rw [htext, List.append_assoc] at hend
        rw [htext, ← Re.advance_advance]
        refine Re.head?_ends_alt (Re.head?_ends_seq
          (d := Cursor.advance (c.advance (w.whole.map digitChar)) [0x2e]) ?_ ?_)
        · rw [Re.ends_char hend rfl, List.head?_cons]
        · have hnot := not_isDigit_end (hf.imp_right (Or.imp_right .inl))
          exact Re.head?_ends_plus (Re.after_advance hend)
            (fun h => w.fraction_ne_nil (by rw [hfraction, List.map_eq_nil_iff.mp h]))
            (fun x hx => isDigit_of_mem_digits (w.fraction_lt ds hfraction) hx) hnot
  refine Re.head?_ends_seq hdecimal ?_
  obtain ⟨front, k, hk, htext⟩ := w.text_concat
  have hlast : (Cursor.advance c w.text).before.head?.any W.isWord = true := by
    simp [Cursor.advance, htext, isWord_of_isDigit W (isDigit_digitChar hk)]
  have hnext : (Cursor.advance c w.text).after.head?.any W.isWord = false := by
    rw [Re.after_advance hafter]
    exact isWord_end W (hf.imp_right (Or.imp_right .inl))
  rw [Re.ends, hlast, hnext]
  rfl

/-- Where no number starts, neither expression matches. -/
theorem ends_decimal_nil {c : Cursor CodePoint} (h : startsNumber c.after = false) :
    (Re.seq decimal (.edge W.isWord)).ends c = [] := by
  have hdigit : c.after.head?.any isDigit = false := by
    cases hafter : c.after with
    | nil => rfl
    | cons x s =>
        rw [hafter] at h
        simp only [startsNumber, List.head?_cons, Option.any_some, Bool.or_eq_false_iff] at h
        exact h.1.1
  exact Re.ends_seq_nil (Re.ends_seq_nil (Re.ends_seq_nil (Re.ends_char_nil hdigit)))

/-- Where no number begins the pattern has no match. -/
theorem ends_value_nil {repr : PyValue → PyStr} {v : ContractNumber}
    (hfloat : ∀ x, v.whole = none → v.loaded = .float x → WritesFloat repr x)
    {c : Cursor CodePoint} (h : startsNumber c.after = false) :
    (Re.seq (numPattern repr v.loaded) (.edge W.isWord)).ends c = [] := by
  refine List.eq_nil_iff_forall_not_mem.mpr fun d hd => ?_
  rw [(written_of_match W hfloat hd).startsNumber] at h
  contradiction

/-- An integer is found in front of the point of a literal. -/
theorem head?_ends_integer {n : Nat} {w : Literal} (hwhole : w.whole = decimalDigits n)
    {f : CodePoint} (hf : f = 0x0a ∨ f = 0x2c ∨ f = 0x29) {rest : PyStr} {c : Cursor CodePoint}
    (hafter : c.after = w.text ++ f :: rest) :
    ((Re.seq (integerPattern n) (.edge W.isWord)).ends c).head? =
      some (c.advance (ofNat n)) := by
  obtain ⟨front, k, hk, htext⟩ := ofNat_concat n
  have hofInt : ofInt n = ofNat n := by
    rw [ofInt, if_neg (by omega), Int.natAbs_natCast]
  rw [Literal.text, hwhole, List.append_assoc] at hafter
  have hends := ends_word_edge W (isWord_digitChar W hk) htext hafter
    (w.fractionText_stops (fun _ => isWord_end W) hf rest)
  rw [Re.ends, integerPattern, Re.ends, List.flatMap_append, hofInt]
  rw [Re.ends] at hends
  rw [hends, List.singleton_append, List.head?_cons]

/-- A literal is found as a whole when its text is looked for. -/
theorem head?_ends_text {w : Literal} {f : CodePoint} (hf : f = 0x0a ∨ f = 0x2c ∨ f = 0x29)
    {rest : PyStr} {c : Cursor CodePoint} (hafter : c.after = w.text ++ f :: rest) :
    ((Re.seq (.word w.text) (.edge W.isWord)).ends c).head? = some (c.advance w.text) := by
  obtain ⟨front, k, hk, htext⟩ := w.text_concat
  have hend : (f :: rest).head?.any W.isWord = false :=
    isWord_end W (hf.imp_right (Or.imp_right .inl))
  rw [ends_word_edge W (isWord_digitChar W hk) htext hafter hend, List.head?_cons]

/-- A literal of which the pattern of a value takes a front part is found as often by it as
any literal is. -/
theorem findAll_value_eq {a : TimeoutAdapter} (ha : a ∈ timeoutAdapters W)
    (hlast : a.last = .boundary) {text : PyStr} {w : Literal} (hoccurs : Occurs W a text w)
    {value : Re CodePoint} {taken left : PyStr} (htaken : w.text = taken ++ left)
    (hne : taken ≠ []) (hleft : ∀ x ∈ left, (isDigit x || x == 0x2e) = true)
    (hfound : ∀ (c : Cursor CodePoint) f rest, (f = 0x0a ∨ f = 0x2c ∨ f = 0x29) →
      c.after = w.text ++ f :: rest →
        ((Re.seq value (.edge W.isWord)).ends c).head? = some (c.advance taken))
    (hnil : ∀ c : Cursor CodePoint, startsNumber c.after = false →
      (Re.seq value (.edge W.isWord)).ends c = []) :
    ((a.pattern W value).findAll 0 [] text).length =
      ((a.pattern W decimal).findAll 0 [] text).length := by
  have hpattern : ∀ value, a.pattern W value = .seq a.front (.seq value (.edge W.isWord)) := by
    intro value
    rw [TimeoutAdapter.pattern, hlast]
  have hvalue : ∀ c : Cursor CodePoint, c.before.reverse ++ c.after = text →
      ((a.pattern W value).ends c).head? =
        ((a.front.ends c).find? fun d => startsNumber d.after).map (·.advance taken) := by
    intro c hc
    rw [hpattern, Re.ends]
    refine Re.head?_flatMap_find (fun d hd hstarts => ?_) fun d _ hstarts => hnil d hstarts
    obtain ⟨f, rest, hafter, hf⟩ := hoccurs.literal c d hc hd hstarts
    exact hfound d f rest hf hafter
  have hdecimal : ∀ c : Cursor CodePoint, c.before.reverse ++ c.after = text →
      ((a.pattern W decimal).ends c).head? =
        ((a.front.ends c).find? fun d => startsNumber d.after).map (·.advance w.text) := by
    intro c hc
    rw [hpattern, Re.ends]
    refine Re.head?_flatMap_find (fun d hd hstarts => ?_) fun d _ hstarts => ?_
    · obtain ⟨f, rest, hafter, hf⟩ := hoccurs.literal c d hc hd hstarts
      exact head?_ends_decimal W hf hafter
    · exact ends_decimal_nil W hstarts
  refine Re.findAll_length_eq (fun c => isDigit c || c == 0x2e) (fun before c after hc => ?_)
    (fun c hc hnone => ?_) (fun c d hc hsome => ?_) rfl (Nat.le_refl 0) (by simp)
  · rw [ends_pattern_number W ha hlast _ before after hc, List.head?_nil]
  · rw [hvalue c hc, Option.map_eq_none_iff] at hnone
    rw [hdecimal c hc, hnone]
    rfl
  · rw [hvalue c hc, Option.map_eq_some_iff] at hsome
    obtain ⟨e, he, rfl⟩ := hsome
    have hstarts : startsNumber e.after = true := by simpa using List.find?_some he
    obtain ⟨f, rest, hafter, hf⟩ :=
      hoccurs.literal c e hc (List.mem_of_find?_eq_some he) hstarts
    obtain ⟨t, ht, -⟩ := Re.moves_of_mem_ends (List.mem_of_find?_eq_some he)
    have hinner : (Cursor.advance e taken).after = left ++ f :: rest :=
      Re.after_advance (by rw [hafter, htaken, List.append_assoc])
    refine ⟨e.advance w.text, t ++ taken, left, ?_, ?_, ?_, ?_, hleft⟩
    · rw [hdecimal c hc, he]
      rfl
    · simp [hne]
    · rw [ht, hafter, hinner, htaken]
      simp only [List.append_assoc]
    · rw [hinner, Re.after_advance hafter]

/-- Behind the whole part of a literal are a point and digits. -/
theorem Literal.mem_fractionText {w : Literal} {x : CodePoint} (hx : x ∈ w.fractionText) :
    (isDigit x || x == 0x2e) = true := by
  rw [fractionText] at hx
  cases hfraction : w.fraction with
  | none => rw [hfraction] at hx; contradiction
  | some ds =>
      rw [hfraction, List.mem_cons] at hx
      rcases hx with rfl | hx
      · rfl
      · rw [isDigit_of_mem_digits (w.fraction_lt ds hfraction) hx]
        rfl

/-- A literal that is mistaken for the contract number is found as often as required. -/
theorem findAll_mistaken_eq {a : TimeoutAdapter} (ha : a ∈ timeoutAdapters W)
    (hlast : a.last = .boundary) {repr : PyValue → PyStr} {v : ContractNumber}
    (hfloat : ∀ x, v.whole = none → v.loaded = .float x → WritesFloat repr x) {text : PyStr}
    {w : Literal} (hoccurs : Occurs W a text w)
    (h : WholePartOnly v w ∨ RoundedText repr v w) :
    ((a.pattern W (numPattern repr v.loaded)).findAll 0 [] text).length = a.minCount := by
  rw [← hoccurs.count]
  have hnil : ∀ c : Cursor CodePoint, startsNumber c.after = false →
      (Re.seq (numPattern repr v.loaded) (.edge W.isWord)).ends c = [] :=
    fun c hstarts => ends_value_nil W hfloat hstarts
  rcases h with ⟨n, hwhole, hdigits, -⟩ | ⟨hwhole, htext, -⟩
  · have htaken : w.text = ofNat n ++ w.fractionText := by rw [Literal.text, hdigits, ofNat]
    refine findAll_value_eq W ha hlast hoccurs htaken ?_ (fun x => Literal.mem_fractionText) ?_ hnil
    · obtain ⟨k, ds, -, hn⟩ := ofNat_cons n
      simp [hn]
    · intro c f rest hf hafter
      rw [numPattern_of_whole hwhole]
      exact head?_ends_integer W hdigits hf hafter
  · refine findAll_value_eq W ha hlast hoccurs (List.append_nil _).symm ?_ (by simp) ?_ hnil
    · obtain ⟨d, ds, -, hw⟩ := w.text_cons
      simp [hw]
    · intro c f rest hf hafter
      obtain ⟨x, hx, hpattern⟩ := @numPattern_of_text repr _ hwhole
      rw [hx] at htext
      rw [hpattern, htext]
      exact head?_ends_text W hf hafter

/-! ## the errors -/

theorem fields_nodup : ((timeoutAdapters W).map TimeoutAdapter.field).Nodup := by
  simp only [timeoutAdapters, List.map_cons, List.map_nil]
  decide

theorem minCount_pos {a : TimeoutAdapter} (ha : a ∈ timeoutAdapters W) : 0 < a.minCount := by
  simp only [timeoutAdapters, List.mem_cons, List.not_mem_nil, or_false] at ha
  rcases ha with rfl | rfl | rfl | rfl | rfl | rfl | rfl | rfl | rfl | rfl | rfl | rfl | rfl | rfl
    <;> exact Nat.succ_pos _

section

variable {repr : PyValue → PyStr} {timeouts : List (PyStr × PyValue)}
  {texts labels : List (PyStr × PyStr)}

/-- The errors of an adapter name its field. -/
theorem field_of_mem_adapterErrors {a : TimeoutAdapter} {e : ContractError}
    (h : e ∈ adapterErrors repr W timeouts texts labels a) :
    e.field = lit "timeouts." ++ a.field := by
  rw [adapterErrors] at h
  split at h
  · contradiction
  · contradiction
  · rw [expectPattern] at h
    split at h
    · contradiction
    · simp only at h
      split at h
      · rw [List.mem_singleton.mp h]
      · contradiction

/-- An adapter reports nothing if the pattern is found often enough. -/
theorem adapterErrors_eq_nil_iff {a : TimeoutAdapter} {v : ContractNumber} {text : PyStr}
    (hvalue : PyValue.get a.field timeouts = some v.loaded)
    (htext : texts.lookup a.source = some text) :
    adapterErrors repr W timeouts texts labels a = [] ↔
      a.minCount ≤ ((a.pattern W (numPattern repr v.loaded)).findAll 0 [] text).length := by
  have herrors : adapterErrors repr W timeouts texts labels a =
      expectPattern texts labels a.source (a.pattern W (numPattern repr v.loaded)) .driftTimeout
        (lit "timeouts." ++ a.field)
        (lit "production literal for " ++ a.field ++ lit " != contract " ++ repr v.loaded)
        a.minCount := by
    rw [adapterErrors, hvalue]
    cases v <;> rfl
  rw [herrors, expectPattern, htext]
  simp only
  split
  · simp; omega
  · simp; omega

/-- No other adapter has errors for the same field. -/
theorem noError_iff {a : TimeoutAdapter} (ha : a ∈ timeoutAdapters W) :
    (∀ e ∈ driftTimeouts repr W timeouts texts labels, e.field ≠ lit "timeouts." ++ a.field) ↔
      adapterErrors repr W timeouts texts labels a = [] := by
  refine ⟨fun h => ?_, fun h e he hfield => ?_⟩
  · refine List.eq_nil_iff_forall_not_mem.mpr fun e he => ?_
    exact h e (List.mem_flatMap.mpr ⟨a, ha, he⟩) (field_of_mem_adapterErrors W he)
  · obtain ⟨b, hb, heb⟩ := List.mem_flatMap.mp he
    rw [field_of_mem_adapterErrors W heb] at hfield
    have hab : b = a := List.inj_on_of_nodup_map (fields_nodup W) hb ha
      (List.append_cancel_left hfield)
    rw [hab, h] at heb
    contradiction

/-- **Drift is noticed** exactly where the literal is not mistaken for the contract number:
its whole part for an integer, or what `repr` writes for a number that was rounded. -/
theorem numeric_drift_noticed_iff {a : TimeoutAdapter} (ha : a ∈ timeoutAdapters W)
    (hlast : a.last = .boundary) {v : ContractNumber} {text : PyStr} {w : Literal}
    (hvalue : PyValue.get a.field timeouts = some v.loaded)
    (htext : texts.lookup a.source = some text) (hoccurs : Occurs W a text w)
    (hfloat : ∀ x, v.whole = none → v.loaded = .float x → WritesFloat repr x) :
    ((∀ e ∈ driftTimeouts repr W timeouts texts labels, e.field ≠ lit "timeouts." ++ a.field) →
        w.value = v.value) ↔ ¬ (WholePartOnly v w ∨ RoundedText repr v w) := by
  rw [noError_iff W ha, adapterErrors_eq_nil_iff W hvalue htext]
  refine ⟨fun hexact hmistaken => ?_, fun hnot hfound => ?_⟩
  · have hequal := hexact (findAll_mistaken_eq W ha hlast hfloat hoccurs hmistaken).ge
    rcases hmistaken with ⟨n, -, -, hne⟩ | ⟨-, -, hne⟩
    · exact hne hequal
    · exact hne hequal
  · have hpos := minCount_pos W ha
    obtain ⟨m, hm⟩ := List.exists_mem_of_length_pos (by omega :
      0 < ((a.pattern W (numPattern repr v.loaded)).findAll 0 [] text).length)
    obtain ⟨hplace, hends⟩ := Re.exists_of_mem_findAll hm
    have hmem := List.mem_of_mem_head? hends
    rw [TimeoutAdapter.pattern, hlast, Re.ends, List.mem_flatMap] at hmem
    obtain ⟨d, hd, hmatch⟩ := hmem
    have hwritten := written_of_match W hfloat hmatch
    obtain ⟨f, rest, hafter, hf⟩ := hoccurs.literal m.1 d hplace hd hwritten.startsNumber
    exact (value_or_mistaken W hwritten hf hafter).resolve_right hnot

end

/-! ## sources -/

/-- The places of a text, in order. -/
def places (text : PyStr) : List (Cursor CodePoint) :=
  (List.range (text.length + 1)).map fun k => ⟨(text.take k).reverse, text.drop k⟩

/-- Every cut of the text is a place. -/
theorem mem_places {text : PyStr} {c : Cursor CodePoint}
    (h : c.before.reverse ++ c.after = text) : c ∈ places text := by
  refine List.mem_map.mpr ⟨c.before.length, ?_, ?_⟩
  · rw [List.mem_range, ← h, List.length_append, List.length_reverse]
    omega
  · have hlength : c.before.length = c.before.reverse.length := List.length_reverse.symm
    rw [← h, hlength, List.take_left, List.drop_left, List.reverse_reverse]

/-- `Occurs`, computed. -/
def occursCheck (a : TimeoutAdapter) (text : PyStr) (w : Literal) : Bool :=
  ((a.pattern W decimal).findAll 0 [] text).length == a.minCount &&
    (places text).all fun c => (a.front.ends c).all fun d => !startsNumber d.after ||
      (w.text.isPrefixOf d.after && (d.after.drop w.text.length).head?.any fun f =>
        f == 0x0a || f == 0x2c || f == 0x29)

/-- The test of an occurrence is sound. -/
theorem occurs_of_check {a : TimeoutAdapter} {text : PyStr} {w : Literal}
    (h : occursCheck W a text w = true) : Occurs W a text w := by
  rw [occursCheck, Bool.and_eq_true, beq_iff_eq, List.all_eq_true] at h
  refine ⟨h.1, fun c d hc hd hstarts => ?_⟩
  have hplace := List.all_eq_true.mp (h.2 c (mem_places hc)) d hd
  rw [hstarts, Bool.not_true, Bool.false_or, Bool.and_eq_true, List.isPrefixOf_iff_prefix] at hplace
  obtain ⟨⟨s, hs⟩, hend⟩ := hplace
  rw [← hs, List.drop_left] at hend
  cases s with
  | nil => contradiction
  | cons f rest => exact ⟨f, rest, hs.symm, by simpa [or_assoc] using hend⟩

/-- `\w` of a text in ASCII. -/
def asciiWord : WordChars where
  isWord c := (0x30 ≤ c.val && c.val ≤ 0x39) || (0x41 ≤ c.val && c.val ≤ 0x5a) || c = 0x5f ||
    (0x61 ≤ c.val && c.val ≤ 0x7a)
  isWord_ascii _ _ := rfl

/-- The adapter of `http_read_timeout_seconds`. -/
def readTimeout : TimeoutAdapter where
  field := lit "http_read_timeout_seconds"
  source := lit "wifi_web"
  front := assignment "REQUEST_READ_TIMEOUT_SECONDS"
  last := .boundary
  minCount := 1

theorem readTimeout_mem : readTimeout ∈ timeoutAdapters W := by
  simp only [timeoutAdapters, List.mem_cons]
  iterate 9 apply Or.inr
  exact .inl rfl

/-- `5.5` -/
def fiveAndAHalf : Literal :=
  ⟨[5], some [5], by decide, by decide, by decide, by simp⟩

theorem fiveAndAHalf_value : fiveAndAHalf.value = 11 / 2 := by
  norm_num [Literal.value, fiveAndAHalf, digitsValue]

/-- `REQUEST_READ_TIMEOUT_SECONDS = 5.5` -/
def readTimeoutText : PyStr :=
  lit "REQUEST_READ_TIMEOUT_SECONDS = " ++ fiveAndAHalf.text ++ [0x0a]

theorem occurs_fiveAndAHalf : Occurs asciiWord readTimeout readTimeoutText fiveAndAHalf :=
  occurs_of_check _ (by decide)

/-- `repr` for contracts with no other numbers than five and a half. -/
def halfRepr : PyValue → PyStr
  | .int n => ofInt n
  | .float _ => fiveAndAHalf.text
  | _ => []

theorem nearestFloat_half : nearestFloat (11 / 2) = .finite (11 / 2) := by
  have hnearest : Binary64.nearest (11 / 2) = 11 / 2 := by
    have hunits : (11 / 2 : ℚ) = ((11 : ℤ) : ℚ) * 2 ^ (-1 : ℤ) := by norm_num
    rw [hunits]
    exact Binary64.nearest_eq_self (by norm_num) (by norm_num)
  have hsmall : ¬ Binary64.Overflows (11 / 2) := by
    rw [Binary64.Overflows, hnearest, not_le]
    calc |(11 / 2 : ℚ)| < 2 ^ 3 := by norm_num
      _ ≤ 2 ^ 1024 := pow_le_pow_right₀ one_le_two (by norm_num)
  rw [nearestFloat, if_neg hsmall, hnearest]

-- Another number of the contract that is loaded as five and a half.
example : nearestFloat (11 / 2 + 1 / 10 ^ 20) = .finite (11 / 2) := by decide +kernel

theorem writesFloat_half : WritesFloat halfRepr (.finite (11 / 2)) where
  starts := by decide
  ends := ⟨[0x35, 0x2e], 0x35, by decide, by decide⟩
  inside := PyStr.forall_of_all (by decide)
  reads w h := by
    rw [← Literal.value_eq_of_text_eq (w := fiveAndAHalf) h, fiveAndAHalf_value, nearestFloat_half]
  infinite negative h := by contradiction

/-- The contract and the module agree on five and a half seconds. -/
theorem half_second_agrees :
    driftTimeouts halfRepr asciiWord
        [(readTimeout.field, (ContractNumber.decimal (11 / 2)).loaded)]
        [(readTimeout.source, readTimeoutText)] [] = [] ∧
      fiveAndAHalf.value = (ContractNumber.decimal (11 / 2)).value := by
  have hloaded : (ContractNumber.decimal (11 / 2)).loaded = .float (.finite (11 / 2)) :=
    congrArg PyValue.float nearestFloat_half
  have hnone : driftTimeouts halfRepr asciiWord
      [(readTimeout.field, (ContractNumber.decimal (11 / 2)).loaded)]
      [(readTimeout.source, readTimeoutText)] [] = [] := by
    rw [hloaded]
    decide +kernel
  have hnotMistaken : ¬ (WholePartOnly (.decimal (11 / 2)) fiveAndAHalf ∨
      RoundedText halfRepr (.decimal (11 / 2)) fiveAndAHalf) := by
    rintro (⟨n, -, -, hne⟩ | ⟨-, -, hne⟩)
    · exact hne fiveAndAHalf_value
    · exact hne fiveAndAHalf_value
  have hnoticed : (∀ e ∈ driftTimeouts halfRepr asciiWord
      [(readTimeout.field, (ContractNumber.decimal (11 / 2)).loaded)]
      [(readTimeout.source, readTimeoutText)] [],
      e.field ≠ lit "timeouts." ++ readTimeout.field) →
        fiveAndAHalf.value = (ContractNumber.decimal (11 / 2)).value := by
    refine (numeric_drift_noticed_iff asciiWord (readTimeout_mem _) rfl rfl rfl
      occurs_fiveAndAHalf fun x _ hx => ?_).mpr hnotMistaken
    rw [hloaded] at hx
    cases hx
    exact writesFloat_half
  refine ⟨hnone, hnoticed fun e he => ?_⟩
  rw [hnone] at he
  contradiction

/-- Five seconds in the contract, five and a half in the module, and no error. -/
theorem half_second_unnoticed :
    driftTimeouts halfRepr asciiWord [(readTimeout.field, (ContractNumber.int 5).loaded)]
        [(readTimeout.source, readTimeoutText)] [] = [] ∧
      Occurs asciiWord readTimeout readTimeoutText fiveAndAHalf ∧
      fiveAndAHalf.value ≠ (ContractNumber.int 5).value := by
  refine ⟨by decide, occurs_fiveAndAHalf, ?_⟩
  rw [fiveAndAHalf_value]
  norm_num [ContractNumber.value]

end Contracts

end SushidaOs
