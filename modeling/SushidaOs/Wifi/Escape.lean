import SushidaOs.Wifi.ScanTable

/-!
# SushidaOs.Wifi.Escape

`_split_escaped` against the escaping of `nmcli --escape yes`
(`sushida_os/wifi/nmcli.py`).

`splitEscaped` undoes the escaping of any record, and on lines that `nmcli`
did not write it drops nothing but the marks: the separators, the backslashes
that escape something and the line feeds at the end.
-/

namespace SushidaOs

/-- A record as `nmcli -t --escape yes` writes it. -/
def joinFields (fields : List PyStr) : PyStr := PyStr.join [0x3a] (fields.map escapeField)

/-- The text without the separators and the backslashes that escape something; a
backslash at the end escapes nothing. -/
def withoutMarks : PyStr → PyStr
  | [] => []
  | [c] => if c = 0x3a then [] else [c]
  | c :: d :: s =>
      if c = 0x5c then d :: withoutMarks s
      else if c = 0x3a then withoutMarks (d :: s)
      else c :: withoutMarks (d :: s)

theorem joinFields_cons (f g : PyStr) (fields : List PyStr) :
    joinFields (f :: g :: fields) = escapeField f ++ 0x3a :: joinFields (g :: fields) := by
  simp only [joinFields, PyStr.join, List.map_cons, List.intersperse_cons_cons, List.flatten_cons,
    List.singleton_append]

/-- Escaping adds nothing but backslashes. -/
theorem mem_escapeField {s : PyStr} {c : CodePoint} (h : c ∈ escapeField s) : c ∈ s ∨ c = 0x5c := by
  rw [escapeField, List.mem_flatMap] at h
  obtain ⟨d, hd, hc⟩ := h
  split at hc
  · simp only [List.mem_cons, List.not_mem_nil, or_false] at hc
    rcases hc with hc | hc
    · exact .inr hc
    · exact .inl (hc ▸ hd)
  · exact .inl (List.mem_singleton.mp hc ▸ hd)

/-- A written line has no line feed in it. -/
theorem lf_not_mem_joinFields {fields : List PyStr} (h : ∀ f ∈ fields, 0x0a ∉ f) :
    0x0a ∉ joinFields fields := by
  have hescape : ∀ f ∈ fields, 0x0a ∉ escapeField f := fun f hf hmem =>
    (mem_escapeField hmem).elim (h f hf) (by decide)
  induction fields with
  | nil => exact List.not_mem_nil
  | cons f fields ih =>
      cases fields with
      | nil =>
          have hfields : joinFields [f] = escapeField f := by simp [joinFields, PyStr.join]
          rw [hfields]
          exact hescape f List.mem_cons_self
      | cons g fields =>
          have hrest := ih (fun x hx => h x (List.mem_cons_of_mem f hx))
            fun x hx => hescape x (List.mem_cons_of_mem f hx)
          rw [joinFields_cons, List.mem_append, List.mem_cons]
          rintro (hmem | hmem | hmem)
          · exact hescape f List.mem_cons_self hmem
          · exact absurd hmem (by decide)
          · exact hrest hmem

theorem rstrip_of_not_mem {c : CodePoint} {s : PyStr} (h : c ∉ s) : s.rstrip c = s := by
  have hdrop : s.reverse.dropWhile (fun d => decide (d = c)) = s.reverse := by
    cases hs : s.reverse with
    | nil => rfl
    | cons d ds =>
        have hd : d ∈ s := List.mem_reverse.mp (by rw [hs]; exact List.mem_cons_self)
        rw [List.dropWhile_cons_of_neg (by simpa using fun hdc : d = c => h (hdc ▸ hd))]
  rw [PyStr.rstrip, hdrop, List.reverse_reverse]

/-- **Fields are read back**: the loop, from the start of a line. -/
theorem splitEscapedAux_joinFields {fields : List PyStr} (h : fields ≠ []) :
    splitEscapedAux [] false (joinFields fields) = fields := by
  induction fields with
  | nil => contradiction
  | cons f fields ih =>
      have hfield := splitEscapedAux_escapeField [] f
      cases fields with
      | nil =>
          have hnil := hfield []
          rw [List.append_nil, List.append_nil] at hnil
          have hfields : joinFields [f] = escapeField f := by simp [joinFields, PyStr.join]
          rw [hfields, hnil, splitEscapedAux]
          simp
      | cons g fields =>
          rw [joinFields_cons, hfield, splitEscapedAux, List.append_nil]
          simp only [Bool.false_eq_true, if_false, List.reverse_reverse]
          rw [if_neg (by decide), if_pos trivial, ih (List.cons_ne_nil g fields)]

theorem splitEscapedAux_ne_nil (current : PyStr) (escaped : Bool) (s : PyStr) :
    splitEscapedAux current escaped s ≠ [] := by
  induction s generalizing current escaped with
  | nil => exact List.cons_ne_nil _ _
  | cons c cs ih =>
      rw [splitEscapedAux]
      split
      · exact ih _ _
      split
      · exact ih _ _
      split
      · exact List.cons_ne_nil _ _
      · exact ih _ _

/-- The fields hold everything but the marks. -/
theorem flatten_splitEscapedAux (current s : PyStr) :
    (splitEscapedAux current false s).flatten = current.reverse ++ withoutMarks s := by
  induction s using withoutMarks.induct generalizing current with
  | case1 => simp [splitEscapedAux, withoutMarks]
  | case2 => simp [splitEscapedAux, withoutMarks]
  | case3 c hc =>
      by_cases hslash : c = 0x5c
      · simp [splitEscapedAux, withoutMarks, hslash]
      · simp [splitEscapedAux, withoutMarks, hslash, hc]
  | case4 d s ih =>
      have hescaped : splitEscapedAux current false (0x5c :: d :: s) =
          splitEscapedAux (d :: current) false s := by simp [splitEscapedAux]
      rw [hescaped, ih, withoutMarks, if_pos rfl, List.reverse_cons, List.append_assoc,
        List.singleton_append]
  | case5 d s _ ih =>
      have hcut : splitEscapedAux current false (0x3a :: d :: s) =
          current.reverse :: splitEscapedAux [] false (d :: s) := by
        rw [splitEscapedAux]
        simp
      rw [hcut, List.flatten_cons, ih, withoutMarks, if_neg (by decide), if_pos rfl]
      rfl
  | case6 c d s hslash hcolon ih =>
      have hkept : splitEscapedAux current false (c :: d :: s) =
          splitEscapedAux (c :: current) false (d :: s) := by
        rw [splitEscapedAux]
        simp [hslash, hcolon]
      rw [hkept, ih, withoutMarks, if_neg hslash, if_neg hcolon, List.reverse_cons,
        List.append_assoc, List.singleton_append]

/-- **`_split_escaped` undoes the escaping, and loses nothing but the marks.** -/
theorem splitEscaped_exact :
    (∀ fields : List PyStr, fields ≠ [] → (∀ f ∈ fields, 0x0a ∉ f) →
        splitEscaped (joinFields fields) = fields) ∧
      ∀ line : PyStr, splitEscaped line ≠ [] ∧
        (splitEscaped line).flatten = withoutMarks (line.rstrip 0x0a) := by
  refine ⟨fun fields hne hlf => ?_, fun line => ⟨splitEscapedAux_ne_nil _ _ _, ?_⟩⟩
  · rw [splitEscaped, rstrip_of_not_mem (lf_not_mem_joinFields hlf),
      splitEscapedAux_joinFields hne]
  · rw [splitEscaped, flatten_splitEscapedAux]
    rfl

/-- A field that ends in a backslash, and an empty one. -/
theorem splitEscaped_backslash_empty :
    splitEscaped (joinFields [[0x61, 0x5c], []]) = [[0x61, 0x5c], []] :=
  splitEscaped_exact.1 [[0x61, 0x5c], []] (by decide) (by decide)

end SushidaOs
