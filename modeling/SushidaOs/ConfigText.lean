import SushidaOs.Config

/-!
# SushidaOs.ConfigText

The grammar of `/etc/sushida-os/config.env`: a file as its author writes it, and
what `parse` makes of it.

* `parse_document` — blank lines, comments and settings of distinct keys, in any
  order and with either line end, are read as they were meant;
* `parse_reads` — nothing else is accepted.
-/

namespace SushidaOs

open PyStr

namespace Config

/-! ## writing -/

/-- A line without its end. -/
inductive Entry where
  | blank
  | comment (text : PyStr)
  | setting (key value : PyStr)
  deriving DecidableEq, Repr

namespace Entry

def text : Entry → PyStr
  | blank => []
  | comment text => 0x23 :: text
  | setting key value => key ++ 0x3d :: value

/-- What the line sets. -/
def pair : Entry → Option (PyStr × PyStr)
  | setting key value => some (key, value)
  | _ => none

/-- The line stays one line; the value of a known key is not taken for a part
of the line end. -/
def Writable : Entry → Prop
  | blank => True
  | comment text => 0x0a ∉ text
  | setting key value => isSetting key = true ∧ 0x0a ∉ value ∧ value.getLast? ≠ some 0x0d

end Entry

inductive LineEnd where
  | lf
  | crlf
  deriving DecidableEq, Repr

/-- The line end up to the line feed. -/
def LineEnd.cr : LineEnd → PyStr
  | lf => []
  | crlf => [0x0d]

/-- A file: lines with their ends, and maybe a line that has none. -/
structure Document where
  lines : List (Entry × LineEnd)
  last : Option Entry

namespace Document

variable (d : Document)

def text : PyStr :=
  (d.lines.flatMap fun line => line.1.text ++ line.2.cr ++ [0x0a]) ++ (d.last.elim [] Entry.text)

def entries : List Entry := d.lines.map Prod.fst ++ d.last.toList

/-- The assignment the file stands for. -/
def pairs : List (PyStr × PyStr) := d.entries.filterMap Entry.pair

/-- Every line is writable and no key is written twice. -/
structure Writable : Prop where
  entries : ∀ entry ∈ d.entries, entry.Writable
  keys : (d.pairs.map Prod.fst).Nodup

end Document

/-! ## what the parser accepts -/

/-- The line sets the key: it is no comment, and is cut at its first `=`. -/
def Sets (line key value : PyStr) : Prop :=
  line.head? ≠ some 0x23 ∧ 0x3d ∉ key ∧ line = key ++ 0x3d :: value

/-- What a result says of the text: a line is blank, a comment, or sets a known
key that no other line sets, and these settings are the result. -/
structure Reads (text : PyStr) (r : List (PyStr × PyStr)) : Prop where
  lines : ∀ (i : Nat) (line : PyStr), (configLines text)[i]? = some line →
    line = [] ∨ line.head? = some 0x23 ∨
      ∃ key value, Sets line key value ∧ isSetting key = true ∧
        ∀ (j : Nat) (other value' : PyStr), j ≠ i → (configLines text)[j]? = some other →
          ¬ Sets other key value'
  settings : ∀ key value, r.lookup key = some value ↔
    ∃ line ∈ configLines text, Sets line key value

theorem parse_ok_iff {text : PyStr} {r : List (PyStr × PyStr)} :
    parse text = .ok r ↔
      InOrder isSetting (configLines text) ∧ r = (configLines text).filterMap settingOf := by
  rw [parse, parseLines_ok_iff, List.map_nil, inOrderAfter_nil_iff, List.nil_append, configLines]

theorem isSkipped_eq_false_iff {line : PyStr} :
    isSkipped line = false ↔ line ≠ [] ∧ line.head? ≠ some 0x23 := by
  simp [isSkipped]

/-- What a line sets, in its own words. -/
theorem settingOf_eq_some_iff {line key value : PyStr} :
    settingOf line = some (key, value) ↔ Sets line key value := by
  rw [Sets]
  cases hskip : isSkipped line with
  | true =>
      rw [settingOf_skipped hskip]
      simp only [reduceCtorEq, false_iff]
      rintro ⟨hhead, -, hline⟩
      have hne : line ≠ [] := by simp [hline]
      rw [isSkipped_eq_false_iff.mpr ⟨hne, hhead⟩] at hskip
      contradiction
  | false =>
      have hhead := (isSkipped_eq_false_iff.mp hskip).2
      have hcut := @partition_found 0x3d line key value
      rw [settingOf, hskip, if_neg Bool.false_ne_true]
      simp only [ne_eq, hhead, not_false_eq_true, true_and]
      rw [and_comm, ← hcut]
      rcases partition 0x3d line with ⟨k, found, v⟩
      cases found <;> simp

/-- A line without a fault is empty, a comment or a setting. -/
theorem isFaulty_eq_false_iff {line : PyStr} : isFaulty isSetting line = false ↔
    line = [] ∨ line.head? = some 0x23 ∨
      ∃ key value, Sets line key value ∧ isSetting key = true := by
  cases hskip : isSkipped line with
  | true =>
      have hone : line = [] ∨ line.head? = some 0x23 := by simpa [isSkipped] using hskip
      simp only [isFaulty_skipped hskip, true_iff]
      exact hone.imp_right Or.inl
  | false =>
      obtain ⟨hne, hhead⟩ := isSkipped_eq_false_iff.mp hskip
      simp only [hne, hhead, false_or, ← settingOf_eq_some_iff]
      cases hsetting : settingOf line with
      | none => simp [isFaulty, hskip, hsetting]
      | some setting =>
          obtain ⟨key, value⟩ := setting
          rw [isFaulty_setting hsetting]
          simp

/-- With distinct keys a lookup finds every entry. -/
theorem lookup_eq_some_iff {r : List (PyStr × PyStr)} (hkeys : (r.map Prod.fst).Nodup)
    {key value : PyStr} : r.lookup key = some value ↔ (key, value) ∈ r := by
  rw [List.lookup_eq_some_iff]
  constructor
  · rintro ⟨front, back, rfl, -⟩
    simp
  · intro hmem
    obtain ⟨front, back, rfl⟩ := List.append_of_mem hmem
    refine ⟨front, back, rfl, fun entry hentry => ?_⟩
    rw [List.map_append, List.nodup_append] at hkeys
    have hne := hkeys.2.2 entry.1 (List.mem_map_of_mem hentry) key (by simp)
    simpa using Ne.symm hne

/-- With distinct keys two lines do not set the same one. -/
theorem key_ne_of_nodup {lines : List PyStr} (hkeys : (settingKeys lines).Nodup) {i j : Nat}
    {line other key value value' : PyStr} (hij : i < j) (hline : lines[i]? = some line)
    (hother : lines[j]? = some other) (hsets : Sets line key value) :
    ¬ Sets other key value' := by
  rw [settingKeys, List.Nodup, List.pairwise_map, List.pairwise_filterMap,
    List.pairwise_iff_getElem] at hkeys
  obtain ⟨hi, rfl⟩ := List.getElem?_eq_some_iff.mp hline
  obtain ⟨hj, rfl⟩ := List.getElem?_eq_some_iff.mp hother
  intro hsets'
  exact hkeys i j hi hj hij _ (settingOf_eq_some_iff.mpr hsets) _
    (settingOf_eq_some_iff.mpr hsets') rfl

/-- Nothing but the grammar is accepted. -/
theorem parse_reads {text : PyStr} {r : List (PyStr × PyStr)} (h : parse text = .ok r) :
    Reads text r := by
  obtain ⟨⟨hsound, hnodup⟩, rfl⟩ := parse_ok_iff.mp h
  refine ⟨fun i line hline => ?_, fun key value => ?_⟩
  · have hmem : line ∈ configLines text := List.mem_of_getElem? hline
    have hkind := isFaulty_eq_false_iff.mp (hsound line hmem)
    refine hkind.imp_right (Or.imp_right ?_)
    rintro ⟨key, value, hsets, hknown⟩
    refine ⟨key, value, hsets, hknown, fun j other value' hne hother hsets' => ?_⟩
    rcases Nat.lt_or_gt_of_ne hne with hlt | hgt
    · exact key_ne_of_nodup hnodup hlt hother hline hsets' hsets
    · exact key_ne_of_nodup hnodup hgt hline hother hsets hsets'
  · rw [lookup_eq_some_iff hnodup, List.mem_filterMap]
    simp only [settingOf_eq_some_iff]

/-! ## what is written -/

theorem stripCr_append_cr (line : PyStr) : stripCr (line ++ [0x0d]) = line := by
  simp [stripCr]

theorem stripCr_of_getLast_ne {line : PyStr} (h : line.getLast? ≠ some 0x0d) :
    stripCr line = line := by
  simp [stripCr, h]

/-- No key holds a character of the grammar. -/
theorem plain_of_isSetting {key : PyStr} (h : isSetting key = true) :
    0x23 ∉ key ∧ 0x3d ∉ key ∧ 0x0a ∉ key := by
  have hall : settings.all (fun setting => setting.key.all fun c =>
      c != 0x23 && c != 0x3d && c != 0x0a) = true := by decide
  rw [isSetting, List.any_eq_true] at h
  obtain ⟨setting, hmem, hkey⟩ := h
  rw [beq_iff_eq] at hkey
  have hplain := List.all_eq_true.mp hall setting hmem
  rw [hkey, List.all_eq_true] at hplain
  refine ⟨fun hc => ?_, fun hc => ?_, fun hc => ?_⟩ <;> exact absurd (hplain _ hc) (by decide)

/-- A comment stays one without its carriage return. -/
theorem isSkipped_comment (text : PyStr) : isSkipped (stripCr (0x23 :: text)) = true := by
  cases text with
  | nil => decide
  | cons c cs =>
      rw [stripCr]
      split
      · rfl
      · rfl

theorem sets_setting {key : PyStr} (hkey : isSetting key = true) (value : PyStr) :
    Sets (key ++ 0x3d :: value) key value := by
  obtain ⟨hhash, heq, -⟩ := plain_of_isSetting hkey
  refine ⟨?_, heq, rfl⟩
  cases key with
  | nil => simp
  | cons c cs =>
      rw [List.cons_append, List.head?_cons]
      intro hc
      rw [Option.some.inj hc] at hhash
      exact hhash List.mem_cons_self

/-- A line with either end is read as it was written. -/
theorem stripCr_entry {entry : Entry} (hw : entry.Writable) (e : LineEnd) :
    settingOf (stripCr (entry.text ++ e.cr)) = entry.pair ∧
      isFaulty isSetting (stripCr (entry.text ++ e.cr)) = false := by
  cases entry with
  | blank => cases e <;> decide
  | comment text =>
      have hskip := isSkipped_comment (text ++ e.cr)
      exact ⟨settingOf_skipped hskip, isFaulty_skipped hskip⟩
  | setting key value =>
      obtain ⟨hkey, -, hcr⟩ := hw
      have hstrip : stripCr ((Entry.setting key value).text ++ e.cr) = key ++ 0x3d :: value := by
        cases e with
        | lf =>
            rw [Entry.text, LineEnd.cr, List.append_nil]
            apply stripCr_of_getLast_ne
            rw [List.getLast?_append, List.getLast?_cons]
            cases hlast : value.getLast? with
            | none => simp
            | some c => simpa [hlast] using hcr
        | crlf => exact stripCr_append_cr _
      have hsetting := settingOf_eq_some_iff.mpr (sets_setting hkey value)
      rw [hstrip]
      refine ⟨hsetting, ?_⟩
      rw [isFaulty_setting hsetting, hkey]
      rfl

theorem lf_not_mem_entry {entry : Entry} (hw : entry.Writable) : 0x0a ∉ entry.text := by
  cases entry with
  | blank => exact List.not_mem_nil
  | comment text => exact List.not_mem_cons_of_ne_of_not_mem (by decide) hw
  | setting key value =>
      obtain ⟨hkey, hvalue, -⟩ := hw
      have hlf := (plain_of_isSetting hkey).2.2
      simp [Entry.text, hlf, hvalue]

/-- Written lines are read back. -/
theorem splitSep_lines {lines : List (Entry × LineEnd)} (hw : ∀ line ∈ lines, line.1.Writable)
    (rest : PyStr) :
    splitSep 0x0a ((lines.flatMap fun line => line.1.text ++ line.2.cr ++ [0x0a]) ++ rest) =
      lines.map (fun line => line.1.text ++ line.2.cr) ++ splitSep 0x0a rest := by
  induction lines with
  | nil => rfl
  | cons line lines ih =>
      have hfree : ∀ c ∈ line.1.text ++ line.2.cr, (c == 0x0a) = false := by
        intro c hc
        rw [beq_eq_false_iff_ne]
        rintro rfl
        rw [List.mem_append] at hc
        rcases hc with hc | hc
        · exact lf_not_mem_entry (hw line List.mem_cons_self) hc
        · cases he : line.2 <;> simp [he, LineEnd.cr] at hc
      rw [List.flatMap_cons, List.append_assoc, List.append_assoc, List.singleton_append,
        splitSep, splitWhere_append_sep _ _ (by decide), splitWhere_free hfree, ← splitSep,
        ih fun l hl => hw l (List.mem_cons_of_mem line hl)]
      rfl

/-- The lines of a file as they were written. -/
theorem configLines_document {d : Document} (hw : d.Writable) :
    configLines d.text = d.lines.map (fun line => stripCr (line.1.text ++ line.2.cr)) ++
      [stripCr (d.last.elim [] Entry.text)] := by
  have hlines : ∀ line ∈ d.lines, line.1.Writable := fun line hline =>
    hw.entries line.1 (List.mem_append_left _ (List.mem_map_of_mem hline))
  have hlast : ∀ c ∈ d.last.elim [] Entry.text, (c == 0x0a) = false := by
    intro c hc
    rw [beq_eq_false_iff_ne]
    rintro rfl
    cases hentry : d.last with
    | none => simp [hentry] at hc
    | some entry =>
        rw [hentry] at hc
        exact lf_not_mem_entry (hw.entries entry (by simp [Document.entries, hentry])) hc
  rw [configLines, Document.text, splitSep_lines hlines, splitSep, splitWhere_free hlast,
    List.map_append, List.map_map]
  rfl

/-- Every line is read as it was written. -/
theorem configLines_sound {d : Document} (hw : d.Writable) :
    (∀ line ∈ configLines d.text, isFaulty isSetting line = false) ∧
      (configLines d.text).filterMap settingOf = d.pairs := by
  have hlines : ∀ line ∈ d.lines, line.1.Writable := fun line hline =>
    hw.entries line.1 (List.mem_append_left _ (List.mem_map_of_mem hline))
  have hlast : isFaulty isSetting (stripCr (d.last.elim [] Entry.text)) = false ∧
      settingOf (stripCr (d.last.elim [] Entry.text)) = d.last.bind Entry.pair := by
    cases hentry : d.last with
    | none => decide
    | some entry =>
        have hread := stripCr_entry (hw.entries entry (by simp [Document.entries, hentry])) .lf
        rw [LineEnd.cr, List.append_nil] at hread
        exact ⟨hread.2, hread.1⟩
  rw [configLines_document hw]
  constructor
  · intro line hline
    rw [List.mem_append, List.mem_map, List.mem_singleton] at hline
    rcases hline with ⟨written, hwritten, rfl⟩ | rfl
    · exact (stripCr_entry (hlines written hwritten) written.2).2
    · exact hlast.1
  · rw [List.filterMap_append, List.filterMap_map, Document.pairs, Document.entries,
      List.filterMap_append, List.filterMap_map]
    congr 1
    · apply List.filterMap_congr
      intro written hwritten
      exact (stripCr_entry (hlines written hwritten) written.2).1
    · rw [List.filterMap_cons, hlast.2]
      cases d.last with
      | none => rfl
      | some entry => cases hpair : entry.pair <;> simp [hpair]

/-- A file is read as it was meant. -/
theorem parse_document {d : Document} (hw : d.Writable) : parse d.text = .ok d.pairs := by
  obtain ⟨hsound, hpairs⟩ := configLines_sound hw
  refine parse_ok_iff.mpr ⟨⟨hsound, ?_⟩, hpairs.symm⟩
  rw [settingKeys, hpairs]
  exact hw.keys

/-- **The grammar**: blank lines, comments and settings of distinct known keys, in
any order and with either line end, are read as they were meant, and nothing
else is accepted. -/
theorem parse_exact :
    (∀ d : Document, d.Writable → parse d.text = .ok d.pairs) ∧
      ∀ text r, parse text = .ok r → Reads text r :=
  ⟨fun _ hw => parse_document hw, fun _ _ h => parse_reads h⟩

/-- A value with `=` and `#` between a comment and a blank line. -/
def sampleDocument : Document where
  lines :=
    [(.comment (lit " kiosk"), .crlf), (.setting (lit "SUSHIDA_URL") (lit "a=b#c"), .crlf),
      (.blank, .lf)]
  last := some (.setting (lit "SCREEN_ZOOM_PERCENT") [])

theorem sample_document_exact :
    parse sampleDocument.text = .ok sampleDocument.pairs ∧
      Reads sampleDocument.text sampleDocument.pairs := by
  have hwritable : sampleDocument.Writable := by
    refine ⟨?_, by decide⟩
    have hentries : sampleDocument.entries = [.comment (lit " kiosk"),
        .setting (lit "SUSHIDA_URL") (lit "a=b#c"), .blank,
        .setting (lit "SCREEN_ZOOM_PERCENT") []] := rfl
    rw [hentries]
    simp only [List.forall_mem_cons, Entry.Writable]
    exact ⟨by decide, by decide, trivial, by decide, nofun⟩
  have hparse := parse_exact.1 sampleDocument hwritable
  exact ⟨hparse, parse_exact.2 _ _ hparse⟩

end Config

end SushidaOs
