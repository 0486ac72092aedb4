import SushidaOs.Lines
import SushidaOs.Utf8

/-!
# SushidaOs.WordSearch

The search for a word between separators, as the expressions
`(^|/)word($|/)` do it: `searchWord sep word` finds the word where a separator
or an end of the text stands on both sides.

The same search can be made on the lines of a text (`searchWord_lines`), on
the text before its newlines were translated
(`searchWord_universalNewlines`), and on the bytes before they were decoded
(`searchWord_decodes`).
-/

namespace SushidaOs

/-- The first line ends at the first separator. -/
theorem splitOnP_head {α : Type} {p : α → Bool} (text : List α) :
    ∃ lines, text.splitOnP p = (text.takeWhile fun c => !p c) :: lines := by
  induction text with
  | nil => exact ⟨[], rfl⟩
  | cons c cs ih =>
      obtain ⟨lines, hlines⟩ := ih
      rw [List.splitOnP_cons_eq_if_modifyHead, hlines]
      cases hc : p c with
      | true => simp [hc]
      | false => simp [hc]

section Search

variable {α : Type} [BEq α] [LawfulBEq α] {sep p : α → Bool} {word : List α}

/-- The text starts with the word, and a separator or the end follows. -/
def wordAt (sep : α → Bool) : List α → List α → Bool
  | [], rest => rest.head?.all sep
  | _ :: _, [] => false
  | w :: ws, c :: cs => w == c && wordAt sep ws cs

/-- The word stands somewhere in the text; `bounded` says that it may stand at
the front. -/
def searchWord (sep : α → Bool) (word : List α) (bounded : Bool) : List α → Bool
  | [] => false
  | c :: cs => (bounded && wordAt sep word (c :: cs)) || searchWord sep word (sep c) cs

/-! ## lines -/

/-- A word without line ends stands on the first line. -/
theorem wordAt_takeWhile (hword : ∀ w ∈ word, p w = false) (text : List α) :
    wordAt sep word (text.takeWhile fun c => !p c) = wordAt (fun c => sep c || p c) word text := by
  induction word generalizing text with
  | nil =>
      cases text with
      | nil => rfl
      | cons c cs =>
          cases hc : p c with
          | true => simp [wordAt, hc]
          | false => simp [wordAt, hc]
  | cons w ws ih =>
      have hw : p w = false := hword w List.mem_cons_self
      have hws := ih fun x hx => hword x (List.mem_cons_of_mem w hx)
      cases text with
      | nil => rfl
      | cons c cs =>
          cases hc : p c with
          | true =>
              have hne : (w == c) = false := by
                apply beq_false_of_ne
                intro heq
                rw [heq, hc] at hw
                contradiction
              simp [wordAt, hc, hne]
          | false => simp [wordAt, hc, hws]

/-- A search with more separators is a search in every line. -/
theorem searchWord_takeWhile (hne : word ≠ []) (hword : ∀ w ∈ word, p w = false) (bounded : Bool)
    (text : List α) :
    searchWord (fun c => sep c || p c) word bounded text =
      (searchWord sep word bounded (text.takeWhile fun c => !p c) ||
        (text.splitOnP p).tail.any (searchWord sep word true)) := by
  induction text generalizing bounded with
  | nil => simp [searchWord]
  | cons c cs ih =>
      obtain ⟨lines, hlines⟩ := splitOnP_head (p := p) cs
      have hcut := List.splitOnP_cons_eq_if_modifyHead (p := p) c cs
      have hfront : wordAt sep word ((c :: cs).takeWhile fun c => !p c) =
          wordAt (fun c => sep c || p c) word (c :: cs) := wordAt_takeWhile hword (c :: cs)
      rw [hlines] at hcut ih
      rw [searchWord, ih, ← hfront, hcut]
      cases hc : p c with
      | true =>
          have hnil : wordAt sep word [] = false := by
            cases word with
            | nil => contradiction
            | cons w ws => rfl
          simp [hc, hnil, searchWord]
      | false =>
          simp [hc, searchWord, Bool.or_assoc]

/-- **Lines**: searching each line is searching the text, with the ends of the
lines as separators. -/
theorem searchWord_lines (hne : word ≠ []) (hword : ∀ w ∈ word, p w = false) (text : List α) :
    (text.splitOnP p).any (searchWord sep word true) =
      searchWord (fun c => sep c || p c) word true text := by
  obtain ⟨lines, hlines⟩ := splitOnP_head (p := p) text
  rw [searchWord_takeWhile hne hword, hlines, List.any_cons, List.tail_cons]

/-- Characters that are neither separators nor in the word are passed over. -/
theorem searchWord_append {front rest : List α} (hne : word ≠ []) (hfront : front ≠ [])
    (hsep : ∀ c ∈ front, sep c = false) (hword : ∀ c ∈ front, c ∉ word) (bounded : Bool) :
    searchWord sep word bounded (front ++ rest) = searchWord sep word false rest := by
  induction front generalizing bounded with
  | nil => contradiction
  | cons c cs ih =>
      have hfalse : wordAt sep word (c :: cs ++ rest) = false := by
        cases word with
        | nil => contradiction
        | cons w ws =>
            have hne : (w == c) = false := by
              apply beq_false_of_ne
              intro heq
              exact hword c List.mem_cons_self (by rw [heq]; exact List.mem_cons_self)
            simp [wordAt, hne]
      rw [List.cons_append] at hfalse ⊢
      rw [searchWord, hfalse, Bool.and_false, Bool.false_or, hsep c List.mem_cons_self]
      cases cs with
      | nil => rfl
      | cons d ds =>
          exact ih (List.cons_ne_nil d ds) (fun x hx => hsep x (List.mem_cons_of_mem c hx))
            (fun x hx => hword x (List.mem_cons_of_mem c hx)) false

end Search

/-! ## newlines -/

section Newlines

variable {sep sep' : CodePoint → Bool} {word : PyStr}

/-- The separators of the translated text, and a carriage return. -/
def AddsCr (sep sep' : CodePoint → Bool) : Prop :=
  sep 0x0a = true ∧ ∀ c, sep' c = (sep c || c == 0x0d)

/-- Line ends of any kind do not matter to a word with `\r` as a separator. -/
theorem wordAt_universalNewlines (hsep : AddsCr sep sep')
    (hword : ∀ w ∈ word, w ≠ 0x0a ∧ w ≠ 0x0d) (text : PyStr) :
    wordAt sep word (PyStr.universalNewlinesAux false text) = wordAt sep' word text := by
  have hcr : sep' 0x0d = true := by rw [hsep.2]; simp
  induction word generalizing text with
  | nil =>
      cases text with
      | nil => rfl
      | cons c cs =>
          by_cases hc : c = 0x0d
          · rw [hc]
            simp [PyStr.universalNewlinesAux, wordAt, hsep.1, hcr]
          · simp [PyStr.universalNewlinesAux, wordAt, hc, hsep.2]
  | cons w ws ih =>
      have hw := hword w List.mem_cons_self
      have hws := ih fun x hx => hword x (List.mem_cons_of_mem w hx)
      cases text with
      | nil => rfl
      | cons c cs =>
          by_cases hc : c = 0x0d
          · have hlfne : (w == 0x0a) = false := beq_false_of_ne hw.1
            have hcrne : (w == 0x0d) = false := beq_false_of_ne hw.2
            rw [hc]
            simp [PyStr.universalNewlinesAux, wordAt, hlfne, hcrne]
          · simp [PyStr.universalNewlinesAux, wordAt, hc, hws]

/-- Nor do they to the search. -/
theorem searchWord_universalNewlinesAux (hsep : AddsCr sep sep') (hne : word ≠ [])
    (hword : ∀ w ∈ word, w ≠ 0x0a ∧ w ≠ 0x0d) (bounded cr : Bool) (hcr : cr = true → bounded = true)
    (text : PyStr) :
    searchWord sep word bounded (PyStr.universalNewlinesAux cr text) =
      searchWord sep' word bounded text := by
  have hlf' : sep' 0x0a = true := by rw [hsep.2, hsep.1]; rfl
  have hcr' : sep' 0x0d = true := by rw [hsep.2]; simp
  have hfirst : ∀ (st : CodePoint → Bool) (c : CodePoint) (cs : PyStr), c = 0x0a ∨ c = 0x0d →
      wordAt st word (c :: cs) = false := by
    intro st c cs hc
    cases word with
    | nil => contradiction
    | cons w ws =>
        have hw := hword w List.mem_cons_self
        have hwc : w ≠ c := by
          cases hc with
          | inl hc => rw [hc]; exact hw.1
          | inr hc => rw [hc]; exact hw.2
        simp [wordAt, hwc]
  induction text generalizing bounded cr with
  | nil => rfl
  | cons c cs ih =>
      by_cases hskip : (cr && decide (c = 0x0a)) = true
      · -- the line feed of a carriage return, which was a separator already
        rw [PyStr.universalNewlinesAux, if_pos hskip]
        rw [Bool.and_eq_true, decide_eq_true_eq] at hskip
        rw [ih bounded false (by simp), searchWord, hfirst sep' c cs (.inl hskip.2), hskip.2, hlf',
          Bool.and_false, Bool.false_or, hcr hskip.1]
      · rw [PyStr.universalNewlinesAux, if_neg hskip]
        by_cases hc : c = 0x0d
        · rw [if_pos hc, hc, searchWord, searchWord, hfirst sep 0x0a _ (.inl rfl),
            hfirst sep' 0x0d cs (.inr rfl), hsep.1, hcr', ih true true (fun _ => rfl)]
        · have hsepc : sep' c = sep c := by rw [hsep.2]; simp [hc]
          have hfront := wordAt_universalNewlines hsep hword (c :: cs)
          rw [PyStr.universalNewlinesAux] at hfront
          simp only [Bool.false_and, Bool.false_eq_true, if_false, hc] at hfront
          rw [if_neg hc, searchWord, searchWord, hfront, hsepc, ih (sep c) false (by simp)]

/-- **Newlines**: in the text before the translation a carriage return is a
separator as well. -/
theorem searchWord_universalNewlines (hsep : AddsCr sep sep') (hne : word ≠ [])
    (hword : ∀ w ∈ word, w ≠ 0x0a ∧ w ≠ 0x0d) (text : PyStr) :
    searchWord sep word true text.universalNewlines = searchWord sep' word true text :=
  searchWord_universalNewlinesAux hsep hne hword true false (by simp) text

end Newlines

/-! ## bytes -/

namespace Utf8

/-- `text` has the ASCII characters of `bytes`, and something else in the
place of every run of other bytes. -/
inductive Decodes : List UInt8 → PyStr → Prop
  | nil : Decodes [] []
  | ascii {b : UInt8} {bytes : List UInt8} {text : PyStr} (hb : b.toNat < 0x80)
      (h : Decodes bytes text) : Decodes (b :: bytes) (Fin.ofNat _ b.toNat :: text)
  | other {b : UInt8} {front bytes : List UInt8} {c : CodePoint} {chars text : PyStr}
      (hbytes : ∀ x ∈ b :: front, 0x80 ≤ x.toNat) (htext : ∀ x ∈ c :: chars, 0x80 ≤ x.val)
      (h : Decodes bytes text) : Decodes (b :: front ++ bytes) (c :: chars ++ text)

/-- The number of bytes. -/
def Front.length : Front → Nat
  | .char _ n => n
  | .malformed n => n

theorem twoBytes_tail (b : UInt8) (rest : List UInt8) :
    ∀ x ∈ rest.take ((twoBytes b rest).length - 1), 0x80 ≤ x.toNat := by
  unfold twoBytes
  split
  · split
    · next hx => simpa [Front.length] using (isTail_bounds hx).1
    · simp [Front.length]
  · simp

theorem threeBytes_tail (b : UInt8) (rest : List UInt8) :
    ∀ x ∈ rest.take ((threeBytes b rest).length - 1), 0x80 ≤ x.toNat := by
  unfold threeBytes
  split
  · split
    · next hx =>
        have hsecond := (isSecond_bounds hx).1.1
        split
        · split
          · next hy => simpa [Front.length] using ⟨hsecond, (isTail_bounds hy).1⟩
          · simpa [Front.length] using hsecond
        · simpa [Front.length] using hsecond
    · simp [Front.length]
  · simp

theorem fourBytes_tail (b : UInt8) (rest : List UInt8) :
    ∀ x ∈ rest.take ((fourBytes b rest).length - 1), 0x80 ≤ x.toNat := by
  unfold fourBytes
  split
  · split
    · next hx =>
        have hsecond := (isSecond_bounds hx).1.1
        split
        · split
          · next hy =>
              have hthird := (isTail_bounds hy).1
              split
              · split
                · next hz => simpa [Front.length] using ⟨hsecond, hthird, (isTail_bounds hz).1⟩
                · simpa [Front.length] using ⟨hsecond, hthird⟩
              · simpa [Front.length] using ⟨hsecond, hthird⟩
          · simpa [Front.length] using hsecond
        · simpa [Front.length] using hsecond
    · simp [Front.length]
  · simp

/-- The bytes of a sequence, well-formed or not, behind its lead byte. -/
theorem sequence_tail (b : UInt8) (rest : List UInt8) :
    ∀ x ∈ rest.take ((sequence b rest).length - 1), 0x80 ≤ x.toNat := by
  unfold sequence
  split
  · simp [Front.length]
  · split
    · exact twoBytes_tail b rest
    · split
      · exact threeBytes_tail b rest
      · split
        · exact fourBytes_tail b rest
        · simp [Front.length]

/-- A buffer without its first `skip` bytes. -/
theorem decodeWith_drop (onError : List UInt8 → Option PyStr) (skip : Nat) (bytes : List UInt8) :
    decodeWith onError skip bytes = decodeWith onError 0 (bytes.drop skip) := by
  induction bytes generalizing skip with
  | nil => simp [decodeWith]
  | cons b bs ih =>
      cases skip with
      | zero => rfl
      | succ skip => rw [decodeWith, if_pos (by omega), Nat.add_sub_cancel, ih, List.drop_succ_cons]

/-- The decoder with replacement characters. -/
theorem decodes_of_decodeWith {bytes : List UInt8} {text : PyStr}
    (h : decodeWith (fun _ => some [0xfffd]) 0 bytes = some text) : Decodes bytes text := by
  induction hlen : bytes.length using Nat.strong_induction_on generalizing bytes text with
  | _ len ih =>
      cases bytes with
      | nil =>
          rw [decodeWith, Option.some.injEq] at h
          rw [← h]
          exact .nil
      | cons b bs =>
          rw [List.length_cons] at hlen
          by_cases hb : b.toNat < 0x80
          · rw [decodeWith_ascii hb, Option.map_eq_some_iff] at h
            obtain ⟨t, ht, rfl⟩ := h
            exact .ascii hb (ih bs.length (by omega) ht rfl)
          · -- one sequence is one run of bytes, and one character in the text
            have hstep : ∀ c : CodePoint, 0x80 ≤ c.val →
                (decodeWith (fun _ => some [0xfffd]) ((sequence b bs).length - 1) bs).map (c :: ·) =
                  some text → Decodes (b :: bs) text := by
              intro c hc hmap
              rw [decodeWith_drop, Option.map_eq_some_iff] at hmap
              obtain ⟨t, ht, rfl⟩ := hmap
              have hrest := ih _ (by rw [List.length_drop]; omega) ht rfl
              have hbytes : Decodes ((b :: bs.take ((sequence b bs).length - 1)) ++
                  bs.drop ((sequence b bs).length - 1)) ([c] ++ t) :=
                .other (List.forall_mem_cons.mpr ⟨by omega, sequence_tail b bs⟩)
                  (by simpa using hc) hrest
              rwa [List.cons_append, List.take_append_drop] at hbytes
            rw [decodeWith, if_neg (by omega)] at h
            cases hseq : sequence b bs with
            | char c n =>
                rw [hseq] at h hstep
                exact hstep c (sequence_not_ascii (by omega) hseq) h
            | malformed n =>
                rw [hseq] at h hstep
                exact hstep 0xfffd (by decide) h

/-- Decoding keeps ASCII and puts other characters for the rest. -/
theorem decodes_decodeReplace (bytes : List UInt8) : Decodes bytes (decodeReplace bytes) := by
  obtain ⟨text, htext⟩ : ∃ text, decodeWith (fun _ => some [0xfffd]) 0 bytes = some text :=
    decodeWith_total (fun bad => ⟨_, rfl⟩) 0 bytes
  rw [decodeReplace, htext, Option.getD_some]
  exact decodes_of_decodeWith htext

/-- The ASCII characters are kept. -/
theorem Decodes.mem {bytes : List UInt8} {text : PyStr} (h : Decodes bytes text) {b : UInt8}
    (hb : b.toNat < 0x80) (hmem : b ∈ bytes) : (Fin.ofNat _ b.toNat : CodePoint) ∈ text := by
  induction h with
  | nil => contradiction
  | ascii _ _ ih =>
      cases List.mem_cons.mp hmem with
      | inl heq => rw [heq]; exact List.mem_cons_self
      | inr hrest => exact List.mem_cons_of_mem _ (ih hrest)
  | other hbytes _ _ ih =>
      cases List.mem_append.mp hmem with
      | inl hfront =>
          have hge := hbytes b hfront
          omega
      | inr hrest => exact List.mem_append_right _ (ih hrest)

end Utf8

section Bytes

variable {byteSep : UInt8 → Bool} {sep : CodePoint → Bool} {word : PyStr}

/-- The separators are the same ASCII characters. -/
structure SameAscii (byteSep : UInt8 → Bool) (sep : CodePoint → Bool) : Prop where
  byte : ∀ b : UInt8, 0x80 ≤ b.toNat → byteSep b = false
  char : ∀ c : CodePoint, 0x80 ≤ c.val → sep c = false
  ascii : ∀ b : UInt8, b.toNat < 0x80 → sep (Fin.ofNat _ b.toNat) = byteSep b

theorem ascii_beq {w : CodePoint} (hw : w.val < 0x80) {b : UInt8} (hb : b.toNat < 0x80) :
    (w == Fin.ofNat _ b.toNat) = (UInt8.ofNat w.val == b) := by
  have hchar : (Fin.ofNat 0x110000 b.toNat : CodePoint).val = b.toNat := by
    rw [Fin.val_ofNat]
    omega
  have hbyte : (UInt8.ofNat w.val).toNat = w.val := Utf8.toNat_ofNat_of_lt (by omega)
  rw [Bool.eq_iff_iff, beq_iff_eq, beq_iff_eq, Fin.ext_iff, hchar, ← UInt8.toNat_inj, hbyte]

/-- One ASCII character. -/
theorem SameAscii.single {w : CodePoint} (hw : w.val < 0x80) :
    SameAscii (fun b => b == UInt8.ofNat w.val) (fun c => c == w) where
  byte b hb := by
    apply beq_false_of_ne
    intro heq
    rw [heq, Utf8.toNat_ofNat_of_lt (by omega)] at hb
    omega
  char c hc := by
    apply beq_false_of_ne
    intro heq
    rw [heq] at hc
    omega
  ascii b hb := by rw [BEq.comm, ascii_beq hw hb, BEq.comm]

theorem SameAscii.or {byteSep' : UInt8 → Bool} {sep' : CodePoint → Bool}
    (h : SameAscii byteSep sep) (h' : SameAscii byteSep' sep') :
    SameAscii (fun b => byteSep b || byteSep' b) (fun c => sep c || sep' c) where
  byte b hb := by rw [h.byte b hb, h'.byte b hb]; rfl
  char c hc := by rw [h.char c hc, h'.char c hc]; rfl
  ascii b hb := by rw [h.ascii b hb, h'.ascii b hb]

/-- An ASCII word is in the decoded text where it is in the bytes. -/
theorem wordAt_decodes (hsep : SameAscii byteSep sep) (hword : ∀ w ∈ word, w.val < 0x80)
    {bytes : List UInt8} {text : PyStr} (h : Utf8.Decodes bytes text) :
    wordAt sep word text = wordAt byteSep (Utf8.asciiBytes word) bytes := by
  induction word generalizing bytes text with
  | nil =>
      cases h with
      | nil => rfl
      | ascii hb _ => exact hsep.ascii _ hb
      | other hbytes htext _ =>
          simp [wordAt, Utf8.asciiBytes, hsep.byte _ (hbytes _ List.mem_cons_self),
            hsep.char _ (htext _ List.mem_cons_self)]
  | cons w ws ih =>
      have hw := hword w List.mem_cons_self
      have hws := fun x hx => hword x (List.mem_cons_of_mem w hx)
      cases h with
      | nil => rfl
      | ascii hb hrest =>
          simp only [wordAt, Utf8.asciiBytes, List.map_cons, ascii_beq hw hb]
          rw [ih hws hrest, Utf8.asciiBytes]
      | @other b front bytes c chars text hbytes htext _ =>
          have hb := hbytes b List.mem_cons_self
          have hc := htext c List.mem_cons_self
          have hchar : (w == c) = false := by
            apply beq_false_of_ne
            intro heq
            rw [← heq] at hc
            omega
          have hbyte : (UInt8.ofNat w.val == b) = false := by
            apply beq_false_of_ne
            intro heq
            rw [← heq, Utf8.toNat_ofNat_of_lt (by omega)] at hb
            omega
          simp [wordAt, Utf8.asciiBytes, hchar, hbyte]

/-- So it is found in both or in neither. -/
theorem searchWord_decodes (hsep : SameAscii byteSep sep) (hne : word ≠ [])
    (hword : ∀ w ∈ word, w.val < 0x80) {bytes : List UInt8} {text : PyStr}
    (h : Utf8.Decodes bytes text) (bounded : Bool) :
    searchWord sep word bounded text =
      searchWord byteSep (Utf8.asciiBytes word) bounded bytes := by
  induction h generalizing bounded with
  | nil => rfl
  | ascii hb hrest ih =>
      rw [searchWord, searchWord, wordAt_decodes hsep hword (.ascii hb hrest), hsep.ascii _ hb, ih]
  | @other b front bytes c chars text hbytes htext _ ih =>
      have hne' : Utf8.asciiBytes word ≠ [] := by simpa [Utf8.asciiBytes] using hne
      have hchars : ∀ x ∈ c :: chars, x ∉ word := by
        intro x hx hmem
        have hlt := hword x hmem
        have hge := htext x hx
        omega
      have hfront : ∀ x ∈ b :: front, x ∉ Utf8.asciiBytes word := by
        intro x hx hmem
        obtain ⟨w, hw, heq⟩ := List.mem_map.mp hmem
        have hlt := hword w hw
        have hge := hbytes x hx
        rw [← heq, Utf8.toNat_ofNat_of_lt (by omega)] at hge
        omega
      rw [searchWord_append hne (List.cons_ne_nil c chars) (fun x hx => hsep.char x (htext x hx))
          hchars,
        searchWord_append hne' (List.cons_ne_nil b front) (fun x hx => hsep.byte x (hbytes x hx))
          hfront, ih]

end Bytes

end SushidaOs
