import SushidaOs.PyStr

/-!
# SushidaOs.Lines

The ways Python cuts a text into lines.

* `splitWhere p` — at every character with `p`, like `str.split` with a
  separator of one character;
* `splitlines` (`SushidaOs.PyStr`) — at the ten line boundaries of `str`, a
  carriage return and its line feed being one, no empty line at the end;
* `universalNewlines` — what reading in text mode does to the text first.

Up to empty lines `splitlines` is `splitWhere isLineBreak`
(`splitlines_nonempty`), and cutting at fewer characters first changes
nothing (`splitWhere_refine`).  So a reader that cuts with `splitlines` sees
the lines of one that cuts at line feeds, each cut further.
-/

namespace SushidaOs

namespace PyStr

/-! ## text mode -/

/-- `cr` records that the last character was a carriage return. -/
def universalNewlinesAux (cr : Bool) : PyStr → PyStr
  | [] => []
  | c :: cs =>
      if cr && c = 0x0a then universalNewlinesAux false cs
      else if c = 0x0d then 0x0a :: universalNewlinesAux true cs
      else c :: universalNewlinesAux false cs

/-- `s.replace("\r\n", "\n").replace("\r", "\n")`. -/
def universalNewlines (s : PyStr) : PyStr := universalNewlinesAux false s

/-- Without carriage returns the text is read as it is. -/
theorem universalNewlines_free {s : PyStr} (h : ∀ c ∈ s, c ≠ 0x0d) : universalNewlines s = s := by
  rw [universalNewlines]
  induction s with
  | nil => rfl
  | cons c cs ih =>
      have hc := h c List.mem_cons_self
      have hcs := ih fun d hd => h d (List.mem_cons_of_mem c hd)
      simp [universalNewlinesAux, hc, hcs]

/-- A line feed counts as a boundary however it was spelled. -/
theorem splitlinesAux_universalNewlines (cur : PyStr) (cr : Bool) (s : PyStr) :
    splitlinesAux cur false (universalNewlinesAux cr s) = splitlinesAux cur cr s := by
  induction s generalizing cur cr with
  | nil => rfl
  | cons c cs ih =>
      have hcrBreak : CodePoint.isLineBreak 0x0d = true := by decide
      have hlfBreak : CodePoint.isLineBreak 0x0a = true := by decide
      have hne : ((0x0a : CodePoint) = 0x0d) = False := by decide
      by_cases hlf : (cr && decide (c = 0x0a)) = true
      · simp only [universalNewlinesAux, splitlinesAux, hlf, if_true, ih]
      · by_cases hcr : c = 0x0d
        · have hright : splitlinesAux cur cr (c :: cs) =
              cur.reverse :: splitlinesAux [] true cs := by
            rw [splitlinesAux, if_neg hlf, hcr, if_pos hcrBreak]
            rfl
          rw [hright, universalNewlinesAux, if_neg hlf, if_pos hcr]
          simp only [splitlinesAux, Bool.false_and, Bool.false_eq_true, if_false, hlfBreak,
            if_true, hne, decide_false, ih]
        · rw [universalNewlinesAux, if_neg hlf, if_neg hcr, splitlinesAux.eq_def cur cr (c :: cs)]
          simp only [if_neg hlf, splitlinesAux, Bool.false_and, Bool.false_eq_true, if_false,
            hcr, decide_false, ih]

/-- Line ends of any kind are line ends for `splitlines`. -/
theorem splitlines_universalNewlines (s : PyStr) :
    splitlines (universalNewlines s) = splitlines s :=
  splitlinesAux_universalNewlines [] false s

/-! ## cutting at every separator -/

/-- A character in front of the first line. -/
def consHead (c : CodePoint) : List PyStr → List PyStr
  | [] => [[c]]
  | line :: lines => (c :: line) :: lines

/-- The parts between the characters with `p`, one more than there are of
these. -/
def splitWhere (p : CodePoint → Bool) : PyStr → List PyStr
  | [] => [[]]
  | c :: cs => if p c then [] :: splitWhere p cs else consHead c (splitWhere p cs)

/-- `s.split(sep)` for a separator of one character. -/
def splitSep (sep : CodePoint) (s : PyStr) : List PyStr := splitWhere (· == sep) s

section SplitWhere

variable {p q : CodePoint → Bool}

theorem consHead_append (c : CodePoint) (xs ys : List PyStr) (h : xs ≠ []) :
    consHead c (xs ++ ys) = consHead c xs ++ ys := by
  cases xs with
  | nil => contradiction
  | cons x xs => rfl

theorem consHead_ne_nil (c : CodePoint) (xs : List PyStr) : consHead c xs ≠ [] := by
  cases xs with
  | nil => simp [consHead]
  | cons x xs => simp [consHead]

theorem splitWhere_ne_nil (s : PyStr) : splitWhere p s ≠ [] := by
  cases s with
  | nil => simp [splitWhere]
  | cons c cs =>
      rw [splitWhere]
      split
      · simp
      · exact consHead_ne_nil c _

/-- A separator ends the lines before it. -/
theorem splitWhere_append_sep (a b : PyStr) {c : CodePoint} (hc : p c = true) :
    splitWhere p (a ++ c :: b) = splitWhere p a ++ splitWhere p b := by
  induction a with
  | nil => simp [splitWhere, hc]
  | cons d ds ih =>
      rw [List.cons_append, splitWhere, splitWhere, ih]
      split
      · rfl
      · exact consHead_append d _ _ (splitWhere_ne_nil ds)

/-- Without separators there is one line. -/
theorem splitWhere_free {s : PyStr} (h : ∀ c ∈ s, p c = false) : splitWhere p s = [s] := by
  induction s with
  | nil => rfl
  | cons c cs ih =>
      have hc : p c = false := h c List.mem_cons_self
      have hcs : splitWhere p cs = [cs] := ih fun d hd => h d (List.mem_cons_of_mem c hd)
      rw [splitWhere, hc, hcs]
      rfl

/-- The lines are parts of the text without separators. -/
theorem mem_splitWhere {s line : PyStr} (h : line ∈ splitWhere p s) :
    ∀ c ∈ line, p c = false ∧ c ∈ s := by
  induction s generalizing line with
  | nil =>
      rw [splitWhere, List.mem_singleton] at h
      rw [h]
      simp
  | cons d ds ih =>
      rw [splitWhere] at h
      by_cases hd : p d = true
      · rw [if_pos hd, List.mem_cons] at h
        cases h with
        | inl hnil => rw [hnil]; simp
        | inr hmem =>
            intro c hc
            have hin := ih hmem c hc
            exact ⟨hin.1, List.mem_cons_of_mem d hin.2⟩
      · rw [if_neg hd] at h
        cases hlines : splitWhere p ds with
        | nil => exact absurd hlines (splitWhere_ne_nil ds)
        | cons first rest =>
            rw [hlines, consHead, List.mem_cons] at h
            rw [hlines] at ih
            intro c hc
            cases h with
            | inl hfirst =>
                rw [hfirst, List.mem_cons] at hc
                cases hc with
                | inl heq => exact ⟨by rw [heq]; simpa using hd, by simp [heq]⟩
                | inr hmem =>
                    have hin := ih List.mem_cons_self c hmem
                    exact ⟨hin.1, List.mem_cons_of_mem d hin.2⟩
            | inr hrest =>
                have hin := ih (List.mem_cons_of_mem first hrest) c hc
                exact ⟨hin.1, List.mem_cons_of_mem d hin.2⟩

/-- Cutting at fewer separators first changes nothing. -/
theorem splitWhere_refine (hpq : ∀ c, p c = true → q c = true) (s : PyStr) :
    splitWhere q s = (splitWhere p s).flatMap (splitWhere q) := by
  induction s with
  | nil => rfl
  | cons c cs ih =>
      by_cases hp : p c = true
      · rw [splitWhere, if_pos (hpq c hp), splitWhere, if_pos hp, ih]
        rfl
      · rw [splitWhere, splitWhere, if_neg hp, ih]
        cases hlines : splitWhere p cs with
        | nil => exact absurd hlines (splitWhere_ne_nil cs)
        | cons first rest =>
            rw [consHead, List.flatMap_cons, List.flatMap_cons, splitWhere]
            by_cases hq : q c = true
            · rw [if_pos hq, if_pos hq]
              rfl
            · rw [if_neg hq, if_neg hq, consHead_append c _ _ (splitWhere_ne_nil first)]

end SplitWhere

/-! ## splitlines -/

/-- The parts between the line boundaries. -/
def pieces (s : PyStr) : List PyStr := splitWhere CodePoint.isLineBreak s

/-- The reversed text `cur` in front of the first line. -/
def prepend (cur : PyStr) : List PyStr → List PyStr
  | [] => [cur.reverse]
  | line :: lines => (cur.reverse ++ line) :: lines

theorem prepend_consHead (cur : PyStr) (c : CodePoint) (lines : List PyStr) :
    prepend cur (consHead c lines) = prepend (c :: cur) lines := by
  cases lines with
  | nil => simp [prepend, consHead]
  | cons line lines => simp [prepend, consHead]

/-- The loop, with what it has collected of the current line. -/
theorem splitlinesAux_nonempty (cur : PyStr) (cr : Bool) (s : PyStr)
    (hcur : cr = true → cur = []) :
    (splitlinesAux cur cr s).filter (fun line => !line.isEmpty) =
      (prepend cur (splitWhere CodePoint.isLineBreak s)).filter (fun line => !line.isEmpty) := by
  induction s generalizing cur cr with
  | nil =>
      rw [splitlinesAux, splitWhere, prepend, List.append_nil]
      cases cur with
      | nil => rfl
      | cons c cs => rfl
  | cons c cs ih =>
      rw [splitlinesAux]
      by_cases hlf : (cr && decide (c = 0x0a)) = true
      · -- the line feed of a carriage return: an empty piece of its own
        rw [if_pos hlf]
        rw [Bool.and_eq_true, decide_eq_true_eq] at hlf
        have hbreak : CodePoint.isLineBreak 0x0a = true := by decide
        rw [hcur hlf.1, hlf.2, ih [] false (by simp), splitWhere, if_pos hbreak]
        cases hlines : splitWhere CodePoint.isLineBreak cs with
        | nil => exact absurd hlines (splitWhere_ne_nil cs)
        | cons line lines => rfl
      · rw [if_neg hlf, splitWhere]
        by_cases hbreak : c.isLineBreak = true
        · rw [if_pos hbreak, if_pos hbreak, prepend, List.append_nil, List.filter_cons,
            List.filter_cons, ih [] _ (by simp)]
          cases hlines : splitWhere CodePoint.isLineBreak cs with
          | nil => exact absurd hlines (splitWhere_ne_nil cs)
          | cons line lines => rfl
        · rw [if_neg hbreak, if_neg hbreak, prepend_consHead]
          exact ih (c :: cur) false (by simp)

/-- **`splitlines` up to empty lines.** -/
theorem splitlines_nonempty (s : PyStr) :
    s.splitlines.filter (fun line => !line.isEmpty) =
      s.pieces.filter (fun line => !line.isEmpty) := by
  rw [splitlines, splitlinesAux_nonempty [] false s (by simp), pieces]
  cases hlines : splitWhere CodePoint.isLineBreak s with
  | nil => exact absurd hlines (splitWhere_ne_nil s)
  | cons line lines => rfl

/-- A reader that passes over empty lines does not need them. -/
theorem filterMap_nonempty {α : Type} (f : PyStr → Option α) (hf : f [] = none)
    (lines : List PyStr) :
    (lines.filter fun line => !line.isEmpty).filterMap f = lines.filterMap f := by
  induction lines with
  | nil => rfl
  | cons line lines ih =>
      cases line with
      | nil => simpa [List.filter_cons, hf] using ih
      | cons c cs => simp [List.filterMap_cons, ih]

/-- The text in front of the first boundary. -/
def firstPiece (s : PyStr) : PyStr := s.takeWhile fun c => !c.isLineBreak

/-- The pieces behind a boundary. -/
def extraPieces (s : PyStr) : List PyStr := s.pieces.tail

/-- A line is its first piece and the pieces behind boundaries. -/
theorem pieces_eq (s : PyStr) : s.pieces = s.firstPiece :: s.extraPieces := by
  have hhead : s.pieces.head? = some s.firstPiece := by
    induction s with
    | nil => rfl
    | cons c cs ih =>
        rw [pieces] at ih ⊢
        cases hlines : splitWhere CodePoint.isLineBreak cs with
        | nil => exact absurd hlines (splitWhere_ne_nil cs)
        | cons line lines =>
            rw [hlines, List.head?_cons, Option.some.injEq] at ih
            cases hc : c.isLineBreak with
            | true => simp [splitWhere, firstPiece, hc]
            | false =>
                rw [firstPiece] at ih ⊢
                simp [splitWhere, hc, hlines, consHead, ih]
  cases hpieces : s.pieces with
  | nil => exact absurd hpieces (splitWhere_ne_nil s)
  | cons line lines =>
      rw [hpieces, List.head?_cons, Option.some.injEq] at hhead
      rw [extraPieces, hpieces, hhead, List.tail_cons]

/-- The lines hold no boundary. -/
theorem mem_splitlines {s line : PyStr} (h : line ∈ s.splitlines) :
    ∀ c ∈ line, c.isLineBreak = false := by
  cases line with
  | nil => simp
  | cons d ds =>
      have hmem : d :: ds ∈ s.splitlines.filter fun line => !line.isEmpty :=
        List.mem_filter.mpr ⟨h, rfl⟩
      rw [splitlines_nonempty, List.mem_filter] at hmem
      intro c hc
      exact (mem_splitWhere hmem.1 c hc).1

/-! ## partition -/

theorem partition_found {c : CodePoint} {s head tail : PyStr} :
    partition c s = (head, true, tail) ↔ s = head ++ c :: tail ∧ c ∉ head := by
  induction s generalizing head with
  | nil => simp [partition]
  | cons d ds ih =>
      rw [partition]
      by_cases hd : d = c
      · rw [if_pos hd, hd]
        cases head with
        | nil => simp
        | cons e es =>
            simp only [Prod.mk.injEq, List.cons_append, List.cons.injEq, List.mem_cons, not_or]
            grind
      · rw [if_neg hd]
        cases head with
        | nil =>
            simp only [Prod.mk.injEq, List.nil_append, List.cons.injEq]
            grind
        | cons e es =>
            simp only [Prod.mk.injEq, List.cons.injEq, List.cons_append, List.mem_cons, not_or]
            have hrest := @ih es
            grind

theorem partition_missing {c : CodePoint} {s : PyStr} :
    (partition c s).2.1 = false ↔ c ∉ s := by
  induction s with
  | nil => simp [partition]
  | cons d ds ih =>
      rw [partition, List.mem_cons, not_or, ← ih]
      by_cases hd : d = c
      · simp [hd]
      · simp [hd, Ne.symm hd]

/-- Without the separator all of the text is in front. -/
theorem partition_not_mem {c : CodePoint} {s : PyStr} (h : c ∉ s) :
    partition c s = (s, false, []) := by
  induction s with
  | nil => rfl
  | cons d ds ih =>
      rw [List.mem_cons, not_or] at h
      rw [partition, if_neg (Ne.symm h.1), ih h.2]

end PyStr

end SushidaOs
