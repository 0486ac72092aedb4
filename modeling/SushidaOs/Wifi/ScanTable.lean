import Mathlib.Data.List.TakeWhile
import SushidaOs.Decimal
import SushidaOs.FirstMax
import SushidaOs.Lines
import SushidaOs.StrOrder
import SushidaOs.Wifi.Nmcli

/-!
# SushidaOs.Wifi.ScanTable

`scan_networks` against the table that `nmcli -t --escape yes` writes.

`nmcli` ends a row with a line feed and escapes `:` and `\`; the reader cuts
the text with `str.splitlines`, which also cuts at a carriage return, a
vertical tab, a form feed, the separators U+001C to U+001E, U+0085, U+2028
and U+2029.  A row with such a character falls into pieces.  Only one of them
has three fields, so what is read of the row (`Row.seen`) is the end of its
SSID, its signal and the beginning of its security.
-/

namespace SushidaOs

/-! ## what nmcli writes -/

/-- A text that can be printed on one line. -/
structure IsLine (s : PyStr) : Prop where
  encodable : s.Encodable
  noLineFeed : ∀ c ∈ s, c ≠ 0x0a

/-- A row of the table. -/
structure Row where
  ssid : PyStr
  signal : Int
  security : PyStr
  ssid_isLine : IsLine ssid
  security_isLine : IsLine security

/-- `--escape yes`. -/
def escapeField (s : PyStr) : PyStr :=
  s.flatMap fun c => if c = 0x3a ∨ c = 0x5c then [0x5c, c] else [c]

/-- A row without its line feed. -/
def Row.text (r : Row) : PyStr :=
  escapeField r.ssid ++ 0x3a :: (PyStr.ofInt r.signal ++ 0x3a :: escapeField r.security)

/-- The table. -/
def tableText (rows : List Row) : PyStr := rows.flatMap fun r => r.text ++ [0x0a]

/-- What `nmcli` prints. -/
def tableBytes (rows : List Row) : List UInt8 := (tableText rows).flatMap CodePoint.utf8

/-- The `stdout` that `run_nmcli` makes of the bytes: `text=True`,
`encoding="utf-8"`, `errors="replace"`. -/
def nmcliText (data : List UInt8) : PyStr := (Utf8.decodeReplace data).universalNewlines

/-! ## what the scan should answer -/

/-- Non-empty, without U+FFFD, at most 32 bytes, no control characters. -/
structure SsidAdmissible (ssid : PyStr) : Prop where
  nonempty : ssid ≠ []
  noReplacement : ∀ c ∈ ssid, c ≠ 0xfffd
  short : ssid.utf8Length ≤ 32
  noControl : ∀ c ∈ ssid, isControl c = false

/-- `max(0, min(100, signal))`. -/
def clampSignal (signal : Int) : Int := max 0 (min 100 signal)

/-- `out` is the table's list of networks: one entry for each admissible SSID,
with the first of its strongest rows, strongest first. -/
structure ScanOf (U : UnicodeData) (rows : List Row) (out : List Network) : Prop where
  distinct : (out.map Network.ssid).Nodup
  ssids : ∀ ssid : PyStr,
    ssid ∈ out.map Network.ssid ↔ SsidAdmissible ssid ∧ ssid ∈ rows.map Row.ssid
  strongest : ∀ n ∈ out, ∃ (before : List Row) (r : Row) (after : List Row),
    rows.filter (fun r => r.ssid = n.ssid) = before ++ r :: after ∧
    n.signal = clampSignal r.signal ∧ n.security = r.security ∧
    (∀ r' ∈ before, clampSignal r'.signal < n.signal) ∧
    ∀ r' ∈ after, clampSignal r'.signal ≤ n.signal
  ordered : out.Pairwise fun a b : Network => b.signal < a.signal ∨
    (a.signal = b.signal ∧ PyStr.lt (b.ssid.casefold U) (a.ssid.casefold U) = false)

/-! ## what the reader makes of a row -/

/-- The part after the last line boundary. -/
def afterLastBreak (s : PyStr) : PyStr :=
  (s.reverse.takeWhile fun c => !c.isLineBreak).reverse

/-- The part before the first line boundary. -/
def beforeFirstBreak (s : PyStr) : PyStr := s.takeWhile fun c => !c.isLineBreak

/-- The row as an entry of the result. -/
def Row.entry (r : Row) : Network := ⟨r.ssid, clampSignal r.signal, r.security⟩

/-- What is left of the row after `splitlines`; `int` refuses a signal with
too many digits. -/
def Row.seen (r : Row) : Option Network :=
  if r.signal.natAbs < 10 ^ PyStr.intMaxStrDigits then
    some ⟨afterLastBreak r.ssid, clampSignal r.signal, beforeFirstBreak r.security⟩
  else none

/-- The entry with this SSID that `scan_networks` should keep. -/
def strongestOf (entries : List Network) (ssid : PyStr) : Option Network :=
  firstMax Network.signal (entries.filter fun n => n.ssid = ssid)

/-- The pieces that `splitlines` makes of the rows tell the same of every
admissible SSID as the rows do. -/
def RowsSeen (rows : List Row) : Prop :=
  ∀ ssid : PyStr, SsidAdmissible ssid →
    strongestOf (rows.filterMap Row.seen) ssid = strongestOf (rows.map Row.entry) ssid

/-! ## fields -/

theorem splitEscapedAux_escapeField (current s rest : PyStr) :
    splitEscapedAux current false (escapeField s ++ rest) =
      splitEscapedAux (s.reverse ++ current) false rest := by
  induction s generalizing current with
  | nil => rfl
  | cons c cs ih =>
      have hcons : escapeField (c :: cs) =
          (if c = 0x3a ∨ c = 0x5c then [0x5c, c] else [c]) ++ escapeField cs := rfl
      rw [hcons]
      by_cases hc : c = 0x3a ∨ c = 0x5c
      · rw [if_pos hc]
        simp only [List.cons_append, List.nil_append, splitEscapedAux, Bool.false_eq_true,
          if_false, if_true, ih, List.reverse_cons, List.append_assoc]
      · rw [if_neg hc]
        rw [not_or] at hc
        simp only [List.cons_append, List.nil_append, splitEscapedAux, Bool.false_eq_true,
          if_false, hc.1, hc.2, ih, List.reverse_cons, List.append_assoc]

theorem splitEscapedAux_ofInt (current : PyStr) (n : Int) (rest : PyStr) :
    splitEscapedAux current false (PyStr.ofInt n ++ rest) =
      splitEscapedAux ((PyStr.ofInt n).reverse ++ current) false rest := by
  have hplain : ∀ s : PyStr, (∀ c ∈ s, c ≠ 0x3a ∧ c ≠ 0x5c) → escapeField s = s := by
    intro s hs
    induction s with
    | nil => rfl
    | cons c cs ih =>
        have hc : ¬ (c = 0x3a ∨ c = 0x5c) := not_or.mpr (hs c List.mem_cons_self)
        have hcs := ih fun d hd => hs d (List.mem_cons_of_mem c hd)
        rw [escapeField, List.flatMap_cons, if_neg hc]
        exact congrArg (c :: ·) hcs
  have hint : escapeField (PyStr.ofInt n) = PyStr.ofInt n := by
    apply hplain
    exact PyStr.forall_mem_ofInt (by decide) (by decide) n
  rw [← hint, splitEscapedAux_escapeField, hint]

/-- Nothing is stripped off a line that has no line feed. -/
theorem rstrip_of_free {c : CodePoint} {s : PyStr} (h : ∀ d ∈ s, d ≠ c) : s.rstrip c = s := by
  have hkeep : s.reverse.dropWhile (fun d => decide (d = c)) = s.reverse := by
    cases hrev : s.reverse with
    | nil => rfl
    | cons d ds =>
        have hd : d ∈ s := by rw [← List.mem_reverse, hrev]; exact List.mem_cons_self
        rw [List.dropWhile_cons, decide_eq_false (h d hd)]
        rfl
  rw [PyStr.rstrip, hkeep, List.reverse_reverse]

/-! ## the pieces of a row -/

theorem isLineBreak_escape {c : CodePoint} (h : c = 0x3a ∨ c = 0x5c) : c.isLineBreak = false := by
  cases h with
  | inl heq => rw [heq]; decide
  | inr heq => rw [heq]; decide

/-- Escaping keeps the line boundaries where they are. -/
theorem pieces_escapeField (s : PyStr) :
    (escapeField s).pieces = s.pieces.map escapeField := by
  induction s with
  | nil => rfl
  | cons c cs ih =>
      have hcons : escapeField (c :: cs) =
          (if c = 0x3a ∨ c = 0x5c then [0x5c, c] else [c]) ++ escapeField cs := rfl
      have hback : CodePoint.isLineBreak 0x5c = false := by decide
      unfold PyStr.pieces at ih ⊢
      rw [hcons]
      by_cases hc : c = 0x3a ∨ c = 0x5c
      · have hbreak := isLineBreak_escape hc
        rw [if_pos hc]
        simp only [List.cons_append, List.nil_append, PyStr.splitWhere, hback, hbreak,
          Bool.false_eq_true, if_false, ih]
        cases PyStr.splitWhere CodePoint.isLineBreak cs with
        | nil => simp [PyStr.consHead, escapeField, hc]
        | cons line lines => simp [PyStr.consHead, escapeField, hc]
      · rw [if_neg hc]
        simp only [List.cons_append, List.nil_append, PyStr.splitWhere, ih]
        split
        · rfl
        · cases PyStr.splitWhere CodePoint.isLineBreak cs with
          | nil => simp [PyStr.consHead, escapeField, hc]
          | cons line lines => simp [PyStr.consHead, escapeField, hc]

theorem afterLastBreak_free (s : PyStr) : ∀ c ∈ afterLastBreak s, c.isLineBreak = false := by
  intro c hc
  have hmem := List.mem_takeWhile_imp (List.mem_reverse.mp hc)
  simpa using hmem

theorem beforeFirstBreak_free (s : PyStr) : ∀ c ∈ beforeFirstBreak s, c.isLineBreak = false := by
  intro c hc
  simpa using List.mem_takeWhile_imp hc

/-- A text is its last piece, or it ends with a boundary and its last piece. -/
theorem afterLastBreak_split (s : PyStr) :
    s = afterLastBreak s ∨
      ∃ (front : PyStr) (c : CodePoint), c.isLineBreak = true ∧
        s = front ++ c :: afterLastBreak s := by
  have hsplit := List.takeWhile_append_dropWhile (p := fun c => !CodePoint.isLineBreak c)
    (l := s.reverse)
  cases hrest : s.reverse.dropWhile fun c => !c.isLineBreak with
  | nil =>
      rw [hrest, List.append_nil] at hsplit
      left
      rw [afterLastBreak, hsplit, List.reverse_reverse]
  | cons c front =>
      have hc : c.isLineBreak = true := by
        have hhead := List.head_dropWhile_not (fun c => !CodePoint.isLineBreak c) (l := s.reverse)
          (by rw [hrest]; simp)
        simpa [hrest] using hhead
      right
      refine ⟨front.reverse, c, hc, ?_⟩
      have hrev := congrArg List.reverse hsplit
      rw [hrest, List.reverse_append, List.reverse_reverse, List.reverse_cons,
        List.append_assoc] at hrev
      exact hrev.symm

/-- A text is its first piece, or it starts with that and a boundary. -/
theorem beforeFirstBreak_split (s : PyStr) :
    s = beforeFirstBreak s ∨
      ∃ (c : CodePoint) (back : PyStr), c.isLineBreak = true ∧
        s = beforeFirstBreak s ++ c :: back := by
  have hsplit := List.takeWhile_append_dropWhile (p := fun c => !CodePoint.isLineBreak c) (l := s)
  cases hrest : s.dropWhile fun c => !c.isLineBreak with
  | nil =>
      rw [hrest, List.append_nil] at hsplit
      exact .inl hsplit.symm
  | cons c back =>
      have hc : c.isLineBreak = true := by
        have hhead := List.head_dropWhile_not (fun c => !CodePoint.isLineBreak c) (l := s)
          (by rw [hrest]; simp)
        simpa [hrest] using hhead
      rw [hrest] at hsplit
      exact .inr ⟨c, back, hc, hsplit.symm⟩

/-! ## one line -/

/-- A line with one field is passed over. -/
theorem networkOfLine_escapeField (U : UnicodeData) {s : PyStr}
    (h : ∀ c ∈ escapeField s, c ≠ 0x0a) : networkOfLine U (escapeField s) = .ok none := by
  have hsplit : splitEscaped (escapeField s) = [s] := by
    have haux := splitEscapedAux_escapeField [] s []
    rw [List.append_nil] at haux
    rw [splitEscaped, rstrip_of_free h, haux]
    simp [splitEscapedAux]
  rw [networkOfLine, hsplit]

/-- The three fields of a line. -/
theorem splitEscaped_row {s t : PyStr} {n : Int}
    (h : ∀ c ∈ escapeField s ++ 0x3a :: (PyStr.ofInt n ++ 0x3a :: escapeField t), c ≠ 0x0a) :
    splitEscaped (escapeField s ++ 0x3a :: (PyStr.ofInt n ++ 0x3a :: escapeField t)) =
      [s, PyStr.ofInt n, t] := by
  have hlast := splitEscapedAux_escapeField [] t []
  rw [List.append_nil] at hlast
  rw [splitEscaped, rstrip_of_free h, splitEscapedAux_escapeField]
  simp only [splitEscapedAux, Bool.false_eq_true, if_false, if_true, splitEscapedAux_ofInt, hlast]
  simp

/-- The checks of `scan_networks` are those of `SsidAdmissible`. -/
theorem ssidAdmissible_iff {ssid : PyStr} {bytes : List UInt8} (h : ssid.encodeUtf8 = .ok bytes) :
    SsidAdmissible ssid ↔ (ssid.isEmpty || PyStr.contains [0xfffd] ssid) = false ∧
      ¬ 32 < bytes.length ∧ ssid.any isControl = false := by
  have hcontains : ∀ s : PyStr,
      PyStr.contains [0xfffd] s = false ↔ ∀ c ∈ s, c ≠ (0xfffd : CodePoint) := by
    intro s
    induction s with
    | nil => simp [PyStr.contains]
    | cons c cs ih =>
        have hhead : List.isPrefixOf [0xfffd] (c :: cs) = false ↔ c ≠ (0xfffd : CodePoint) := by
          rw [ne_comm]
          simp only [List.isPrefixOf, Bool.and_true, beq_eq_false_iff_ne]
        rw [PyStr.contains, Bool.or_eq_false_iff, ih, hhead, List.forall_mem_cons]
  have hlen := PyStr.utf8Length_of_encodeUtf8 h
  rw [Bool.or_eq_false_iff, hcontains, List.any_eq_false]
  constructor
  · intro hadm
    refine ⟨⟨by simpa using hadm.nonempty, hadm.noReplacement⟩, ?_, ?_⟩
    · have hshort := hadm.short
      omega
    · intro c hc
      simpa using hadm.noControl c hc
  · rintro ⟨⟨hne, hrep⟩, hshort, hcontrol⟩
    refine ⟨by simpa using hne, hrep, by omega, ?_⟩
    intro c hc
    simpa using hcontrol c hc

/-- What the loop makes of the piece with the signal. -/
theorem networkOfLine_row (U : UnicodeData) {s t : PyStr} {n : Int} (hs : s.Encodable)
    (h : ∀ c ∈ escapeField s ++ 0x3a :: (PyStr.ofInt n ++ 0x3a :: escapeField t), c ≠ 0x0a) :
    (SsidAdmissible s ∧ n.natAbs < 10 ^ PyStr.intMaxStrDigits ∧
      networkOfLine U (escapeField s ++ 0x3a :: (PyStr.ofInt n ++ 0x3a :: escapeField t)) =
        .ok (some ⟨s, clampSignal n, t⟩)) ∨
    (¬ (SsidAdmissible s ∧ n.natAbs < 10 ^ PyStr.intMaxStrDigits) ∧
      networkOfLine U (escapeField s ++ 0x3a :: (PyStr.ofInt n ++ 0x3a :: escapeField t)) =
        .ok none) := by
  obtain ⟨bytes, hbytes⟩ := PyStr.encodeUtf8_of_encodable hs
  have hadm := ssidAdmissible_iff hbytes
  rw [networkOfLine, splitEscaped_row h]
  simp only [hbytes, PyStr.toInt_ofInt]
  by_cases hempty : (s.isEmpty || PyStr.contains [0xfffd] s) = true
  · right
    rw [if_pos hempty]
    refine ⟨fun hgood => ?_, rfl⟩
    have hfalse := (hadm.mp hgood.1).1
    rw [hempty] at hfalse
    contradiction
  rw [if_neg hempty]
  by_cases hlong : 32 < bytes.length
  · right
    rw [if_pos hlong]
    exact ⟨fun hgood => (hadm.mp hgood.1).2.1 hlong, rfl⟩
  rw [if_neg hlong]
  by_cases hcontrol : s.any isControl = true
  · right
    rw [if_pos hcontrol]
    refine ⟨fun hgood => ?_, rfl⟩
    have hfalse := (hadm.mp hgood.1).2.2
    rw [hcontrol] at hfalse
    contradiction
  rw [if_neg hcontrol]
  have hssid : SsidAdmissible s := hadm.mpr ⟨by simpa using hempty, hlong, by simpa using hcontrol⟩
  by_cases hdigits : n.natAbs < 10 ^ PyStr.intMaxStrDigits
  · left
    rw [if_pos hdigits]
    exact ⟨hssid, hdigits, rfl⟩
  · right
    rw [if_neg hdigits]
    exact ⟨fun hgood => hdigits hgood.2, rfl⟩

/-! ## the loop -/

theorem collectNetworks_append (U : UnicodeData) {table table' : List Network} (a b : List PyStr)
    (h : collectNetworks U table a = .ok table') :
    collectNetworks U table (a ++ b) = collectNetworks U table' b := by
  induction a generalizing table with
  | nil =>
      obtain rfl : table = table' := by simpa [collectNetworks] using h
      rfl
  | cons line lines ih =>
      rw [collectNetworks] at h
      rw [List.cons_append, collectNetworks]
      split at h
      · contradiction
      · exact ih h
      · exact ih h

/-- Lines without three fields change nothing. -/
theorem collectNetworks_skip (U : UnicodeData) (table : List Network) {lines : List PyStr}
    (h : ∀ line ∈ lines, networkOfLine U line = .ok none) :
    collectNetworks U table lines = .ok table := by
  induction lines with
  | nil => rfl
  | cons line lines ih =>
      rw [collectNetworks, h line List.mem_cons_self]
      exact ih fun l hl => h l (List.mem_cons_of_mem line hl)

theorem collectNetworks_nonempty (U : UnicodeData) (table : List Network) (lines : List PyStr) :
    collectNetworks U table (lines.filter fun line => !line.isEmpty) =
      collectNetworks U table lines := by
  have hnil : networkOfLine U [] = .ok none := rfl
  induction lines generalizing table with
  | nil => rfl
  | cons line lines ih =>
      cases line with
      | nil =>
          rw [collectNetworks, hnil]
          exact ih table
      | cons c cs =>
          have hkeep : (!List.isEmpty (c :: cs)) = true := rfl
          rw [List.filter_cons, if_pos hkeep, collectNetworks, collectNetworks]
          split
          · rfl
          · exact ih table
          · exact ih _

/-- The reader's loop is over the pieces of the text. -/
theorem collectNetworks_splitlines (U : UnicodeData) (table : List Network) (s : PyStr) :
    collectNetworks U table s.splitlines = collectNetworks U table s.pieces := by
  rw [← collectNetworks_nonempty U table s.splitlines, PyStr.splitlines_nonempty,
    collectNetworks_nonempty]

/-- The entry that is made of the row, if any. -/
noncomputable def Row.read (r : Row) : Option Network :=
  r.seen.filter fun n => @decide (SsidAdmissible n.ssid) (Classical.propDecidable _)

theorem escapeField_append (s t : PyStr) :
    escapeField (s ++ t) = escapeField s ++ escapeField t := List.flatMap_append

/-- Escaping adds no line boundaries. -/
theorem escapeField_free {s : PyStr} (h : ∀ c ∈ s, c.isLineBreak = false) :
    ∀ c ∈ escapeField s, c.isLineBreak = false := by
  intro c hc
  obtain ⟨d, hd, hc⟩ := List.mem_flatMap.mp hc
  split at hc
  · cases List.mem_cons.mp hc with
    | inl heq => rw [heq]; decide
    | inr hmem => rw [List.mem_singleton.mp hmem]; exact h d hd
  · rw [List.mem_singleton.mp hc]
    exact h d hd

/-- A line boundary is written as it is. -/
theorem escapeField_break {c : CodePoint} (hc : c.isLineBreak = true) (s : PyStr) :
    escapeField (c :: s) = c :: escapeField s := by
  have hplain : ¬ (c = 0x3a ∨ c = 0x5c) := by
    intro hesc
    rw [isLineBreak_escape hesc] at hc
    contradiction
  have hcons : escapeField (c :: s) =
      (if c = 0x3a ∨ c = 0x5c then [0x5c, c] else [c]) ++ escapeField s := rfl
  rw [hcons, if_neg hplain]
  rfl

/-- The pieces up to the last boundary of a field, whatever follows it. -/
theorem pieces_field_append (s : PyStr) :
    ∃ before : List PyStr, ∀ rest : PyStr,
      (escapeField s ++ rest).pieces =
        before.map escapeField ++ (escapeField (afterLastBreak s) ++ rest).pieces := by
  cases afterLastBreak_split s with
  | inl hwhole => exact ⟨[], fun rest => by rw [← hwhole]; rfl⟩
  | inr hsplit =>
      obtain ⟨front, c, hc, hs⟩ := hsplit
      refine ⟨front.pieces, fun rest => ?_⟩
      have htext : escapeField s ++ rest =
          escapeField front ++ c :: (escapeField (afterLastBreak s) ++ rest) := by
        conv_lhs => rw [hs]
        rw [escapeField_append, escapeField_break hc, List.append_assoc, List.cons_append]
      rw [htext, PyStr.pieces, PyStr.splitWhere_append_sep _ _ hc, ← pieces_escapeField]
      rfl

/-- The pieces from the first boundary of a field on, whatever precedes it. -/
theorem pieces_append_field (s : PyStr) :
    ∃ after : List PyStr, ∀ lead : PyStr, (∀ c ∈ lead, c.isLineBreak = false) →
      (lead ++ escapeField s).pieces =
        (lead ++ escapeField (beforeFirstBreak s)) :: after.map escapeField := by
  have hfree : ∀ lead : PyStr, (∀ c ∈ lead, c.isLineBreak = false) →
      ∀ c ∈ lead ++ escapeField (beforeFirstBreak s), c.isLineBreak = false := by
    intro lead hlead c hc
    cases List.mem_append.mp hc with
    | inl h => exact hlead c h
    | inr h => exact escapeField_free (beforeFirstBreak_free s) c h
  cases beforeFirstBreak_split s with
  | inl hwhole =>
      refine ⟨[], fun lead hlead => ?_⟩
      have hline := PyStr.splitWhere_free (hfree lead hlead)
      rw [← hwhole] at hline ⊢
      exact hline
  | inr hsplit =>
      obtain ⟨c, back, hc, hs⟩ := hsplit
      refine ⟨back.pieces, fun lead hlead => ?_⟩
      have htext : lead ++ escapeField s =
          (lead ++ escapeField (beforeFirstBreak s)) ++ c :: escapeField back := by
        conv_lhs => rw [hs]
        rw [escapeField_append, escapeField_break hc, List.append_assoc]
      have hline := PyStr.splitWhere_free (hfree lead hlead)
      rw [htext, PyStr.pieces, PyStr.splitWhere_append_sep _ _ hc, hline, ← pieces_escapeField]
      rfl

/-- The piece of the row that has the signal. -/
def Row.line (r : Row) : PyStr :=
  escapeField (afterLastBreak r.ssid) ++
    0x3a :: (PyStr.ofInt r.signal ++ 0x3a :: escapeField (beforeFirstBreak r.security))

/-- The pieces of a row: those of the SSID before its last boundary, the one
with the signal, those of the security after its first boundary. -/
theorem pieces_text (r : Row) :
    ∃ before after : List PyStr,
      r.text.pieces = before.map escapeField ++ r.line :: after.map escapeField := by
  obtain ⟨before, hbefore⟩ := pieces_field_append r.ssid
  obtain ⟨after, hafter⟩ := pieces_append_field r.security
  have hint : ∀ c ∈ PyStr.ofInt r.signal, c.isLineBreak = false :=
    PyStr.forall_mem_ofInt (by decide) (by decide) r.signal
  have hcolon : CodePoint.isLineBreak 0x3a = false := by decide
  have hlead : ∀ c ∈ escapeField (afterLastBreak r.ssid) ++
      0x3a :: (PyStr.ofInt r.signal ++ [0x3a]), c.isLineBreak = false := by
    intro c hc
    simp only [List.mem_append, List.mem_cons, List.not_mem_nil, or_false] at hc
    rcases hc with hc | rfl | hc | rfl
    · exact escapeField_free (afterLastBreak_free r.ssid) c hc
    · exact hcolon
    · exact hint c hc
    · exact hcolon
  have hrest := hafter _ hlead
  simp only [List.append_assoc, List.cons_append, List.nil_append] at hrest
  exact ⟨before, after, by rw [Row.text, hbefore, hrest, Row.line]⟩

theorem ne_lineFeed_of_free {s : PyStr} (h : ∀ c ∈ s, c.isLineBreak = false) :
    ∀ c ∈ s, c ≠ 0x0a := by
  intro c hc heq
  have hbreak : CodePoint.isLineBreak 0x0a = true := by decide
  rw [← heq, h c hc] at hbreak
  contradiction

theorem Row.read_eq_some {r : Row} {n : Network} :
    r.read = some n ↔ r.seen = some n ∧ SsidAdmissible n.ssid := by
  simp [Row.read, Option.filter_eq_some_iff]

theorem strengthen_eq_upsert (n : Network) (table : List Network) :
    strengthen n table = upsert Network.ssid Network.signal n table := by
  induction table with
  | nil => rfl
  | cons m ms ih => rw [strengthen, upsert, ih]

/-- One row of the table. -/
theorem collectNetworks_row (U : UnicodeData) (table : List Network) (r : Row) :
    collectNetworks U table r.text.pieces =
      .ok (upserts Network.ssid Network.signal r.read.toList table) := by
  obtain ⟨before, after, hpieces⟩ := pieces_text r
  have hline : ∀ line ∈ r.text.pieces, ∀ c ∈ line, c ≠ 0x0a := fun line hmem =>
    ne_lineFeed_of_free fun c hc => (PyStr.mem_splitWhere hmem c hc).1
  have hskip : ∀ part : List PyStr, (∀ s ∈ part, escapeField s ∈ r.text.pieces) →
      ∀ line ∈ part.map escapeField, networkOfLine U line = .ok none := by
    intro part hpart line hmem
    obtain ⟨s, hs, rfl⟩ := List.mem_map.mp hmem
    exact networkOfLine_escapeField U (hline _ (hpart s hs))
  have hbefore := collectNetworks_skip U table (hskip before fun s hs => by
    rw [hpieces]; exact List.mem_append_left _ (List.mem_map_of_mem hs))
  have hafter := fun table' : List Network =>
    collectNetworks_skip U table' (hskip after fun s hs => by
      rw [hpieces]
      exact List.mem_append_right _ (List.mem_cons_of_mem _ (List.mem_map_of_mem hs)))
  have hsignal : ∀ c ∈ r.line, c ≠ 0x0a := hline _ (by rw [hpieces]; simp)
  have hencode : (afterLastBreak r.ssid).Encodable := by
    intro c hc
    have hmem := List.takeWhile_subset _ (List.mem_reverse.mp hc)
    exact r.ssid_isLine.encodable c (List.mem_reverse.mp hmem)
  rw [hpieces, collectNetworks_append U _ _ hbefore, collectNetworks]
  rcases networkOfLine_row U hencode hsignal with ⟨hadm, hdigits, hread⟩ | ⟨hbad, hread⟩
  · have hsome : r.read = some ⟨afterLastBreak r.ssid, clampSignal r.signal,
        beforeFirstBreak r.security⟩ :=
      Row.read_eq_some.mpr ⟨by rw [Row.seen, if_pos hdigits], hadm⟩
    simp only [Row.line, hread, hafter, hsome, strengthen_eq_upsert, Option.toList_some]
    rfl
  · have hnone : r.read = none := by
      cases hr : r.read with
      | none => rfl
      | some n =>
          obtain ⟨hseen, hadm⟩ := Row.read_eq_some.mp hr
          unfold Row.seen at hseen
          split at hseen
          · next hdigits =>
              rw [Option.some.injEq] at hseen
              rw [← hseen] at hadm
              exact absurd ⟨hadm, hdigits⟩ hbad
          · exact absurd hseen.symm (Option.some_ne_none n)
    simp only [Row.line, hread, hafter, hnone, Option.toList_none]
    rfl

/-- The loop over the whole table. -/
theorem collectNetworks_table (U : UnicodeData) (table : List Network) (rows : List Row) :
    collectNetworks U table (tableText rows).pieces =
      .ok (upserts Network.ssid Network.signal (rows.filterMap Row.read) table) := by
  induction rows generalizing table with
  | nil => rfl
  | cons r rows ih =>
      have hlf : CodePoint.isLineBreak 0x0a = true := by decide
      have htext : tableText (r :: rows) = r.text ++ 0x0a :: tableText rows := by
        rw [tableText, List.flatMap_cons, List.append_assoc]
        rfl
      have hread : (r :: rows).filterMap Row.read = r.read.toList ++ rows.filterMap Row.read := by
        cases hr : r.read with
        | none => simp [hr]
        | some n => simp [hr]
      have hpieces : (tableText (r :: rows)).pieces = r.text.pieces ++ (tableText rows).pieces := by
        rw [htext]
        exact PyStr.splitWhere_append_sep _ _ hlf
      rw [hpieces, collectNetworks_append U _ _ (collectNetworks_row U table r), ih, hread]
      simp only [upserts, List.foldl_append]

/-! ## the text layer -/

theorem encodable_tableText (rows : List Row) : (tableText rows).Encodable := by
  have hescape : ∀ s : PyStr, s.Encodable → (escapeField s).Encodable := by
    intro s hs c hc
    obtain ⟨d, hd, hc⟩ := List.mem_flatMap.mp hc
    split at hc
    · cases List.mem_cons.mp hc with
      | inl heq => rw [heq]; decide
      | inr hmem => rw [List.mem_singleton.mp hmem]; exact hs d hd
    · rw [List.mem_singleton.mp hc]
      exact hs d hd
  intro c hc
  obtain ⟨r, -, hc⟩ := List.mem_flatMap.mp hc
  simp only [Row.text, List.mem_append, List.mem_cons, List.not_mem_nil, or_false] at hc
  rcases hc with (hc | rfl | hc | rfl | hc) | rfl
  · exact hescape _ r.ssid_isLine.encodable c hc
  · decide
  · exact PyStr.forall_mem_ofInt (p := fun c => c.isSurrogate = false) (by decide) (by decide)
      r.signal c hc
  · decide
  · exact hescape _ r.security_isLine.encodable c hc
  · decide

/-- What `scan_networks` reads of the table. -/
theorem scanResult_table (U : UnicodeData) (rows : List Row) :
    scanResult U (.completed 0 (nmcliText (tableBytes rows))) =
      .ok ((upserts Network.ssid Network.signal (rows.filterMap Row.read) []).insertionSort
        fun a b => networkLe U a b = true) := by
  have hlines : (nmcliText (tableBytes rows)).splitlines = (tableText rows).splitlines := by
    rw [nmcliText, tableBytes, Utf8.decodeReplace_utf8 (encodable_tableText rows),
      PyStr.splitlines_universalNewlines]
  have hscan : scanResult U (.completed 0 (nmcliText (tableBytes rows))) =
      parseScan U (nmcliText (tableBytes rows)) := rfl
  rw [hscan, parseScan, hlines, collectNetworks_splitlines, collectNetworks_table]

/-! ## the order of the result -/

/-- The sort key as a position in a linear order. -/
theorem networkLe_iff (U : UnicodeData) (a b : Network) :
    networkLe U a b = true ↔ b.signal < a.signal ∨
      (a.signal = b.signal ∧ PyStr.lt (b.ssid.casefold U) (a.ssid.casefold U) = false) := by
  rw [networkLe, Bool.not_eq_true', Bool.or_eq_false_iff, Bool.and_eq_false_iff,
    decide_eq_false_iff_not, decide_eq_false_iff_not]
  constructor
  · rintro ⟨hlt, hlex⟩
    by_cases heq : a.signal = b.signal
    · exact .inr ⟨heq, hlex.resolve_left (by omega)⟩
    · exact .inl (by omega)
  · intro h
    cases h with
    | inl hlt => exact ⟨by omega, .inl (by omega)⟩
    | inr heq => exact ⟨by omega, .inr heq.2⟩

theorem networkLe_total (U : UnicodeData) (a b : Network) :
    networkLe U a b = true ∨ networkLe U b a = true := by
  rw [networkLe_iff, networkLe_iff, ← Bool.not_eq_true, ← Bool.not_eq_true, PyStr.lt_iff,
    PyStr.lt_iff, not_lt, not_lt]
  rcases Int.lt_trichotomy a.signal b.signal with hlt | heq | hgt
  · exact .inr (.inl hlt)
  · cases le_total (a.ssid.casefold U) (b.ssid.casefold U) with
    | inl hle => exact .inl (.inr ⟨heq, hle⟩)
    | inr hle => exact .inr (.inr ⟨heq.symm, hle⟩)
  · exact .inl (.inl hgt)

theorem networkLe_trans (U : UnicodeData) {a b c : Network} (hab : networkLe U a b = true)
    (hbc : networkLe U b c = true) : networkLe U a c = true := by
  rw [networkLe_iff, ← Bool.not_eq_true, PyStr.lt_iff, not_lt] at hab hbc ⊢
  cases hab with
  | inl hlt =>
      cases hbc with
      | inl hlt' => exact .inl (by omega)
      | inr heq => exact .inl (by omega)
  | inr heq =>
      cases hbc with
      | inl hlt => exact .inl (by omega)
      | inr heq' => exact .inr ⟨by omega, le_trans heq.2 heq'.2⟩

/-! ## the whole scan -/

theorem ssid_of_strongestOf {entries : List Network} {ssid : PyStr} {n : Network}
    (h : strongestOf entries ssid = some n) : n.ssid = ssid := by
  obtain ⟨before, after, hsplit, -⟩ := firstMax_eq_some_iff.mp h
  have hmem : n ∈ entries.filter fun n => decide (n.ssid = ssid) := by rw [hsplit]; simp
  simpa using (List.mem_filter.mp hmem).2

theorem filter_entry (rows : List Row) (ssid : PyStr) :
    (rows.map Row.entry).filter (fun n => n.ssid = ssid) =
      (rows.filter fun r => r.ssid = ssid).map Row.entry := List.filter_map

/-- The strongest row of an SSID, as the rows tell it. -/
theorem strongestOf_entry_iff {rows : List Row} {n : Network} :
    strongestOf (rows.map Row.entry) n.ssid = some n ↔
      ∃ (before : List Row) (r : Row) (after : List Row),
        rows.filter (fun r => r.ssid = n.ssid) = before ++ r :: after ∧
        n.signal = clampSignal r.signal ∧ n.security = r.security ∧
        (∀ r' ∈ before, clampSignal r'.signal < n.signal) ∧
        ∀ r' ∈ after, clampSignal r'.signal ≤ n.signal := by
  rw [strongestOf, filter_entry, firstMax_eq_some_iff]
  constructor
  · rintro ⟨before, after, hsplit, hbefore, hafter⟩
    obtain ⟨front, rest, hrows, hfront, hrest⟩ := List.map_eq_append_iff.mp hsplit
    obtain ⟨r, back, hback, hr, hafter'⟩ := List.map_eq_cons_iff.mp hrest
    rw [← hfront] at hbefore
    rw [← hafter'] at hafter
    refine ⟨front, r, back, by rw [hrows, hback], by rw [← hr]; rfl, by rw [← hr]; rfl, ?_, ?_⟩
    · intro r' hr'
      exact hbefore r'.entry (List.mem_map_of_mem hr')
    · intro r' hr'
      exact hafter r'.entry (List.mem_map_of_mem hr')
  · rintro ⟨before, r, after, hsplit, hsignal, hsecurity, hbefore, hafter⟩
    have hmem : r ∈ rows.filter fun r => decide (r.ssid = n.ssid) := by rw [hsplit]; simp
    have hssid : r.ssid = n.ssid := by simpa using (List.mem_filter.mp hmem).2
    have hentry : r.entry = n := by
      cases n
      simp only [Row.entry, Network.mk.injEq]
      exact ⟨hssid, hsignal.symm, hsecurity.symm⟩
    refine ⟨before.map Row.entry, after.map Row.entry, by rw [hsplit, ← hentry]; simp, ?_, ?_⟩
    · intro b hb
      obtain ⟨r', hr', rfl⟩ := List.mem_map.mp hb
      exact hbefore r' hr'
    · intro b hb
      obtain ⟨r', hr', rfl⟩ := List.mem_map.mp hb
      exact hafter r' hr'

/-- The specification in terms of `strongestOf`. -/
theorem scanOf_iff {U : UnicodeData} {rows : List Row} {out : List Network}
    (hdistinct : (out.map Network.ssid).Nodup)
    (hordered : out.Pairwise fun a b => networkLe U a b = true) :
    ScanOf U rows out ↔ ∀ n : Network,
      n ∈ out ↔ SsidAdmissible n.ssid ∧ strongestOf (rows.map Row.entry) n.ssid = some n := by
  constructor
  · intro h n
    have hstrongest : ∀ m ∈ out, strongestOf (rows.map Row.entry) m.ssid = some m := fun m hm =>
      strongestOf_entry_iff.mpr (h.strongest m hm)
    constructor
    · intro hn
      exact ⟨((h.ssids n.ssid).mp (List.mem_map_of_mem hn)).1, hstrongest n hn⟩
    · rintro ⟨hadm, hn⟩
      obtain ⟨before, r, after, hsplit, -⟩ := strongestOf_entry_iff.mp hn
      have hr : r ∈ rows.filter fun r => decide (r.ssid = n.ssid) := by rw [hsplit]; simp
      rw [List.mem_filter, decide_eq_true_eq] at hr
      have hrow : n.ssid ∈ rows.map Row.ssid := by
        rw [← hr.2]
        exact List.mem_map_of_mem hr.1
      obtain ⟨m, hm, hssid⟩ := List.mem_map.mp ((h.ssids n.ssid).mpr ⟨hadm, hrow⟩)
      have hmax := hstrongest m hm
      rw [hssid, hn, Option.some.injEq] at hmax
      rw [hmax]
      exact hm
  · intro h
    refine ⟨hdistinct, ?_, ?_, hordered.imp fun hle => (networkLe_iff U _ _).mp hle⟩
    · intro ssid
      constructor
      · intro hin
        obtain ⟨n, hn, rfl⟩ := List.mem_map.mp hin
        obtain ⟨hadm, hmax⟩ := (h n).mp hn
        obtain ⟨before, r, after, hsplit, -⟩ := strongestOf_entry_iff.mp hmax
        have hr : r ∈ rows.filter fun r => decide (r.ssid = n.ssid) := by rw [hsplit]; simp
        rw [List.mem_filter, decide_eq_true_eq] at hr
        refine ⟨hadm, ?_⟩
        rw [← hr.2]
        exact List.mem_map_of_mem hr.1
      · rintro ⟨hadm, hrow⟩
        obtain ⟨r, hr, rfl⟩ := List.mem_map.mp hrow
        cases hmax : strongestOf (rows.map Row.entry) r.ssid with
        | none =>
            have hnil := firstMax_eq_none_iff.mp hmax
            have hin : r.entry ∈ (rows.map Row.entry).filter fun n => decide (n.ssid = r.ssid) :=
              List.mem_filter.mpr ⟨List.mem_map_of_mem hr, by simp [Row.entry]⟩
            rw [hnil] at hin
            contradiction
        | some n =>
            have hssid := ssid_of_strongestOf hmax
            have hn : n ∈ out := (h n).mpr ⟨by rw [hssid]; exact hadm, by rw [hssid]; exact hmax⟩
            rw [← hssid]
            exact List.mem_map_of_mem hn
    · intro n hn
      exact strongestOf_entry_iff.mp ((h n).mp hn).2

/-- Only entries with an admissible SSID are kept, and all of these. -/
theorem strongestOf_read (rows : List Row) {ssid : PyStr} (h : SsidAdmissible ssid) :
    strongestOf (rows.filterMap Row.read) ssid = strongestOf (rows.filterMap Row.seen) ssid := by
  have hfilter : (rows.filterMap Row.read).filter (fun n => n.ssid = ssid) =
      (rows.filterMap Row.seen).filter fun n => n.ssid = ssid := by
    induction rows with
    | nil => rw [List.filterMap_nil, List.filterMap_nil]
    | cons r rows ih =>
        cases hseen : r.seen with
        | none =>
            have hread : r.read = none := by rw [Row.read, hseen]; rfl
            rw [List.filterMap_cons, List.filterMap_cons, hseen, hread]
            exact ih
        | some n =>
            by_cases hadm : SsidAdmissible n.ssid
            · have hread : r.read = some n := Row.read_eq_some.mpr ⟨hseen, hadm⟩
              rw [List.filterMap_cons, List.filterMap_cons, hseen, hread]
              simp only [List.filter_cons, ih]
            · have hread : r.read = none := by
                cases hr : r.read with
                | none => rfl
                | some m =>
                    obtain ⟨hm, hadm'⟩ := Row.read_eq_some.mp hr
                    rw [hseen, Option.some.injEq] at hm
                    rw [hm] at hadm
                    exact absurd hadm' hadm
              have hne : n.ssid ≠ ssid := fun heq => hadm (by rw [heq]; exact h)
              rw [List.filterMap_cons, List.filterMap_cons, hseen, hread]
              simp only [List.filter_cons, hne, decide_false, Bool.false_eq_true, if_false, ih]
  rw [strongestOf, strongestOf, hfilter]

theorem admissible_of_strongestOf_read {rows : List Row} {ssid : PyStr} {n : Network}
    (h : strongestOf (rows.filterMap Row.read) ssid = some n) : SsidAdmissible n.ssid := by
  obtain ⟨before, after, hsplit, -⟩ := firstMax_eq_some_iff.mp h
  have hmem : n ∈ (rows.filterMap Row.read).filter fun n => decide (n.ssid = ssid) := by
    rw [hsplit]; simp
  obtain ⟨r, -, hr⟩ := List.mem_filterMap.mp (List.mem_filter.mp hmem).1
  exact (Row.read_eq_some.mp hr).2

/-- **The scan decodes the table** exactly when cutting the rows at every line
boundary of `str` makes no difference to an admissible SSID. -/
theorem scan_decodes_iff (U : UnicodeData) (rows : List Row) :
    (∃ out : List Network,
      scanResult U (.completed 0 (nmcliText (tableBytes rows))) = .ok out ∧ ScanOf U rows out) ↔
    RowsSeen rows := by
  rw [scanResult_table]
  let table := upserts Network.ssid Network.signal (rows.filterMap Row.read) []
  let out := table.insertionSort fun a b => networkLe U a b = true
  have hperm : out.Perm table := List.perm_insertionSort _ table
  have hdistinct : (out.map Network.ssid).Nodup :=
    (hperm.map Network.ssid).nodup_iff.mpr (nodup_keys_upserts _ (by simp))
  have hordered : out.Pairwise fun a b => networkLe U a b = true :=
    letI : Std.Total fun a b : Network => networkLe U a b = true := ⟨networkLe_total U⟩
    letI : IsTrans Network fun a b => networkLe U a b = true := ⟨fun _ _ _ => networkLe_trans U⟩
    List.pairwise_insertionSort _ table
  have hmem : ∀ n : Network, n ∈ out ↔
      SsidAdmissible n.ssid ∧ strongestOf (rows.filterMap Row.seen) n.ssid = some n := by
    intro n
    rw [hperm.mem_iff, mem_upserts]
    constructor
    · intro h
      have hadm : SsidAdmissible n.ssid := admissible_of_strongestOf_read h
      rw [← strongestOf_read rows hadm]
      exact ⟨hadm, h⟩
    · rintro ⟨hadm, h⟩
      rw [← strongestOf_read rows hadm] at h
      exact h
  have hexists : (∃ out' : List Network, (Except.ok out : Except PyExc (List Network)) = .ok out' ∧
      ScanOf U rows out') ↔ ScanOf U rows out := by
    simp
  rw [hexists, scanOf_iff hdistinct hordered]
  constructor
  · intro h ssid hadm
    have hboth : ∀ n : Network, n.ssid = ssid →
        (strongestOf (rows.filterMap Row.seen) ssid = some n ↔
          strongestOf (rows.map Row.entry) ssid = some n) := by
      intro n hn
      have h₁ := hmem n
      have h₂ := h n
      rw [hn] at h₁ h₂
      rw [h₁] at h₂
      simpa [hadm] using h₂
    cases hseen : strongestOf (rows.filterMap Row.seen) ssid with
    | some n => exact ((hboth n (ssid_of_strongestOf hseen)).mp hseen).symm
    | none =>
        cases hentry : strongestOf (rows.map Row.entry) ssid with
        | none => rfl
        | some n =>
            have hn := (hboth n (ssid_of_strongestOf hentry)).mpr hentry
            rw [hseen] at hn
            exact absurd hn.symm (Option.some_ne_none n)
  · intro h n
    rw [hmem]
    constructor
    · rintro ⟨hadm, hn⟩
      exact ⟨hadm, by rw [← h n.ssid hadm]; exact hn⟩
    · rintro ⟨hadm, hn⟩
      exact ⟨hadm, by rw [h n.ssid hadm]; exact hn⟩

/-- Rows without line boundaries are read as they are. -/
theorem rowsSeen_of_free {rows : List Row}
    (h : ∀ r ∈ rows, (∀ c ∈ r.ssid, c.isLineBreak = false) ∧
      (∀ c ∈ r.security, c.isLineBreak = false) ∧
      r.signal.natAbs < 10 ^ PyStr.intMaxStrDigits) : RowsSeen rows := by
  have hseen : rows.filterMap Row.seen = rows.map Row.entry := by
    rw [← List.filterMap_eq_map]
    refine List.filterMap_congr fun r hr => ?_
    obtain ⟨hssid, hsecurity, hdigits⟩ := h r hr
    have hlast : afterLastBreak r.ssid = r.ssid := by
      rw [afterLastBreak, List.takeWhile_eq_self_iff.mpr, List.reverse_reverse]
      intro c hc
      rw [hssid c (List.mem_reverse.mp hc)]
      rfl
    have hfirst : beforeFirstBreak r.security = r.security := by
      rw [beforeFirstBreak, List.takeWhile_eq_self_iff.mpr]
      intro c hc
      rw [hsecurity c hc]
      rfl
    rw [Row.seen, if_pos hdigits, hlast, hfirst]
    rfl
  intro ssid _
  rw [hseen]

/-- A network whose name has a line separator in it. -/
def separatorRow : Row where
  ssid := .lit "a\u2028b"
  signal := 80
  security := .lit "WPA2"
  ssid_isLine := ⟨PyStr.encodable_lit _, PyStr.forall_of_all (by decide)⟩
  security_isLine := ⟨PyStr.encodable_lit _, PyStr.forall_of_all (by decide)⟩

/-- It is listed under the second half of its name. -/
theorem scan_misreads_line_separator :
    scanResult .ascii (.completed 0 (nmcliText (tableBytes [separatorRow]))) =
      .ok [⟨.lit "b", 80, .lit "WPA2"⟩] ∧
    ¬ ∃ out : List Network,
      scanResult .ascii (.completed 0 (nmcliText (tableBytes [separatorRow]))) = .ok out ∧
      ScanOf .ascii [separatorRow] out := by
  have hscan : scanResult .ascii (.completed 0 (nmcliText (tableBytes [separatorRow]))) =
      .ok [⟨.lit "b", 80, .lit "WPA2"⟩] := by decide
  refine ⟨hscan, ?_⟩
  rintro ⟨out, hout, hspec⟩
  rw [hscan, Except.ok.injEq] at hout
  have hadm : SsidAdmissible separatorRow.ssid := ⟨by decide,
    PyStr.forall_of_all (by decide), by decide, PyStr.forall_of_all (by decide)⟩
  have hlisted := (hspec.ssids separatorRow.ssid).mpr ⟨hadm, by simp⟩
  rw [← hout] at hlisted
  exact absurd hlisted (by decide)

end SushidaOs
