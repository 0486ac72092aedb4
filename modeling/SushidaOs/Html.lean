import SushidaOs.PyStr

/-!
# SushidaOs.Html

`html.escape` and `html.unescape` of CPython.

Escaped text has no character that ends a text or an attribute
(`escape_free`), and is read back as it was (`unescape_escape`).
-/

namespace SushidaOs

open PyStr

namespace Html

/-! ## `html.escape` -/

/-- `s.replace(c, text)` for a single character. -/
def replace (c : CodePoint) (text s : PyStr) : PyStr :=
  s.flatMap fun d => if d = c then text else [d]

/-- `html.escape(s, quote=True)`. -/
def escape (s : PyStr) : PyStr :=
  replace 0x27 (lit "&#x27;") (replace 0x22 (lit "&quot;") (replace 0x3e (lit "&gt;")
    (replace 0x3c (lit "&lt;") (replace 0x26 (lit "&amp;") s))))

/-- What becomes of one character. -/
def escapeChar (c : CodePoint) : PyStr :=
  if c = 0x26 then lit "&amp;"
  else if c = 0x3c then lit "&lt;"
  else if c = 0x3e then lit "&gt;"
  else if c = 0x22 then lit "&quot;"
  else if c = 0x27 then lit "&#x27;"
  else [c]

theorem replace_append (c : CodePoint) (text s t : PyStr) :
    replace c text (s ++ t) = replace c text s ++ replace c text t :=
  List.flatMap_append

/-- Text is escaped part by part. -/
theorem escape_append (s t : PyStr) : escape (s ++ t) = escape s ++ escape t := by
  simp only [escape, replace_append]

theorem replace_singleton_ne {c d : CodePoint} (h : d ≠ c) (text : PyStr) :
    replace c text [d] = [d] := by
  simp [replace, h]

/-- One character, after all five replacements. -/
theorem escape_singleton (c : CodePoint) : escape [c] = escapeChar c := by
  unfold escapeChar
  split
  · next h => rw [h]; decide
  split
  · next h => rw [h]; decide
  split
  · next h => rw [h]; decide
  split
  · next h => rw [h]; decide
  split
  · next h => rw [h]; decide
  · next hamp hlt hgt hquot hapos =>
      simp only [escape, replace_singleton_ne hamp, replace_singleton_ne hlt,
        replace_singleton_ne hgt, replace_singleton_ne hquot, replace_singleton_ne hapos]

/-- The replacements one after the other do what one pass does. -/
theorem escape_cons (c : CodePoint) (s : PyStr) : escape (c :: s) = escapeChar c ++ escape s := by
  rw [← escape_singleton, ← escape_append, List.singleton_append]

/-- The characters with a meaning in the markup. -/
def isMarkup (c : CodePoint) : Bool := c == 0x3c || c == 0x3e || c == 0x22

/-- Escaped text has no `<`, `>` or quote. -/
theorem escape_free (s : PyStr) : ∀ c ∈ escape s, isMarkup c = false := by
  induction s with
  | nil => simp [escape, replace]
  | cons d ds ih =>
      intro c hc
      rw [escape_cons, List.mem_append] at hc
      cases hc with
      | inr hc => exact ih c hc
      | inl hc =>
          revert c
          unfold escapeChar
          split
          · exact forall_of_all (by decide)
          split
          · exact forall_of_all (by decide)
          split
          · exact forall_of_all (by decide)
          split
          · exact forall_of_all (by decide)
          split
          · exact forall_of_all (by decide)
          · next hlt hgt hquot _ =>
              intro c hc
              rw [List.mem_singleton.mp hc, isMarkup, beq_false_of_ne hlt, beq_false_of_ne hgt,
                beq_false_of_ne hquot]
              rfl

/-- Escaping makes no surrogates. -/
theorem encodable_escape {s : PyStr} (h : s.Encodable) : (escape s).Encodable := by
  induction s with
  | nil => simp [escape, replace, PyStr.Encodable]
  | cons c cs ih =>
      have hchar : (escapeChar c).Encodable := by
        unfold escapeChar
        split
        · exact encodable_lit _
        split
        · exact encodable_lit _
        split
        · exact encodable_lit _
        split
        · exact encodable_lit _
        split
        · exact encodable_lit _
        · intro d hd
          rw [List.mem_singleton.mp hd]
          exact h c List.mem_cons_self
      rw [escape_cons]
      exact hchar.append (ih fun d hd => h d (List.mem_cons_of_mem c hd))

/-! ## `html.unescape` -/

/-- The tables of `html` as far as they are not computed here. -/
structure Tables where
  /-- `html5.get(name)`. -/
  html5 : PyStr → Option PyStr
  /-- What a numeric reference stands for. -/
  number : Nat → PyStr
  html5_amp : html5 (lit "amp;") = some (lit "&")
  html5_lt : html5 (lit "lt;") = some (lit "<")
  html5_gt : html5 (lit "gt;") = some (lit ">")
  html5_quot : html5 (lit "quot;") = some (lit "\"")
  number_ascii : ∀ n : Nat, 0x20 ≤ n → n < 0x7f → number n = [Fin.ofNat _ n]

/-- The names of XML, and the numbers of the code points. -/
def Tables.xml : Tables where
  html5 name :=
    if name = lit "amp;" then some (lit "&")
    else if name = lit "lt;" then some (lit "<")
    else if name = lit "gt;" then some (lit ">")
    else if name = lit "quot;" then some (lit "\"")
    else none
  number n := if n < 0x110000 then [Fin.ofNat _ n] else [0xfffd]
  html5_amp := by decide
  html5_lt := by decide
  html5_gt := by decide
  html5_quot := by decide
  number_ascii n _ h := if_pos (by omega)

def isDecimal (c : CodePoint) : Bool := 0x30 ≤ c.val && c.val ≤ 0x39

def isHex (c : CodePoint) : Bool :=
  isDecimal c || (0x41 ≤ c.val && c.val ≤ 0x46) || (0x61 ≤ c.val && c.val ≤ 0x66)

/-- `[^\t\n\f <&#;]`. -/
def isNameChar (c : CodePoint) : Bool :=
  !(c == 0x09 || c == 0x0a || c == 0x0c || c == 0x20 || c == 0x3c || c == 0x26 || c == 0x23 ||
    c == 0x3b)

def hexValue (c : CodePoint) : Nat :=
  if c.val ≤ 0x39 then c.val - 0x30 else if c.val ≤ 0x46 then c.val - 0x37 else c.val - 0x57

/-- The length of `;?`. -/
def semicolon (s : PyStr) : Nat := if s.head? = some 0x3b then 1 else 0

/-- A name that is not in the table: the longest front of `s` that is, with at
most `n` and more than one characters. -/
def longestName (H : Tables) (s : PyStr) : Nat → PyStr
  | 0 => 0x26 :: s
  | n + 1 =>
      if n + 1 < 2 then 0x26 :: s
      else match H.html5 (s.take (n + 1)) with
        | some text => text ++ s.drop (n + 1)
        | none => longestName H s n

/-- `_replace_charref` of a name. -/
def named (H : Tables) (s : PyStr) : PyStr :=
  match H.html5 s with
  | some text => text
  | none => longestName H s (s.length - 1)

/-- The match of `_charref` behind an `&`: what it is replaced with, and how many
characters it takes. -/
def reference (H : Tables) : PyStr → Option (PyStr × Nat)
  | 0x23 :: rest =>
      let digits := rest.takeWhile isDecimal
      if !digits.isEmpty then
        some (H.number (digits.foldl (fun n c => 10 * n + hexValue c) 0),
          1 + digits.length + semicolon (rest.drop digits.length))
      else match rest with
        | x :: rest =>
            let digits := rest.takeWhile isHex
            if (x == 0x78 || x == 0x58) && !digits.isEmpty then
              some (H.number (digits.foldl (fun n c => 16 * n + hexValue c) 0),
                2 + digits.length + semicolon (rest.drop digits.length))
            else none
        | [] => none
  | rest =>
      let name := (rest.takeWhile isNameChar).take 32
      if name.isEmpty then none
      else
        let n := name.length + semicolon (rest.drop name.length)
        some (named H (rest.take n), n)

/-- `html.unescape` behind `skip` characters that are part of a reference. -/
def unescapeFrom (H : Tables) (skip : Nat) : PyStr → PyStr
  | [] => []
  | c :: cs =>
      match skip with
      | skip + 1 => unescapeFrom H skip cs
      | 0 =>
          if c = 0x26 then
            match reference H cs with
            | some (text, n) => text ++ unescapeFrom H n cs
            | none => c :: unescapeFrom H 0 cs
          else c :: unescapeFrom H 0 cs

/-- `html.unescape`. -/
def unescape (H : Tables) (s : PyStr) : PyStr := unescapeFrom H 0 s

theorem unescapeFrom_skip (H : Tables) (front rest : PyStr) :
    unescapeFrom H front.length (front ++ rest) = unescapeFrom H 0 rest := by
  induction front with
  | nil => rfl
  | cons c cs ih => rw [List.length_cons, List.cons_append, unescapeFrom, ih]

/-- A reference is replaced. -/
theorem unescapeFrom_reference {H : Tables} (front : PyStr) {rest text : PyStr}
    (h : reference H (front ++ rest) = some (text, front.length)) :
    unescapeFrom H 0 (0x26 :: (front ++ rest)) = text ++ unescapeFrom H 0 rest := by
  rw [unescapeFrom, if_pos rfl, h]
  simp only
  rw [unescapeFrom_skip]

/-- A named reference is read up to its semicolon. -/
theorem reference_named {H : Tables} (name : PyStr) {text : PyStr}
    (hname : name.all isNameChar = true)
    (hne : name.isEmpty = false) (hlength : name.length ≤ 32)
    (htext : H.html5 (name ++ [0x3b]) = some text) (rest : PyStr) :
    reference H (name ++ [0x3b] ++ rest) = some (text, (name ++ [0x3b]).length) := by
  have hchars : ∀ c ∈ name, isNameChar c = true := List.all_eq_true.mp hname
  have hstop : isNameChar 0x3b = false := by decide
  have htake : (name ++ [0x3b] ++ rest).takeWhile isNameChar = name := by
    rw [List.append_assoc, List.takeWhile_append_of_pos hchars, List.singleton_append,
      List.takeWhile_cons_of_neg (by rw [hstop]; decide), List.append_nil]
  have hsemicolon : semicolon ((name ++ [0x3b] ++ rest).drop name.length) = 1 := by
    rw [List.append_assoc, List.drop_left]
    rfl
  have hfront : (name ++ [0x3b] ++ rest).take (name.length + 1) = name ++ [0x3b] :=
    List.take_left' (by simp)
  have hlen : (name ++ [0x3b]).length = name.length + 1 := by simp
  unfold reference
  split
  · next h =>
      cases name with
      | nil => contradiction
      | cons c cs =>
          have hc := hchars c List.mem_cons_self
          obtain ⟨rfl, -⟩ := List.cons_eq_cons.mp h
          contradiction
  · simp only [htake, List.take_of_length_le hlength, hne, Bool.false_eq_true, if_false,
      hsemicolon, hfront, hlen, named, htext]

/-- The apostrophe is read back from its number. -/
theorem reference_apostrophe (H : Tables) (rest : PyStr) :
    reference H (lit "#x27;" ++ rest) = some ([0x27], 5) := by
  have hnumber : H.number 0x27 = [0x27] := H.number_ascii 0x27 (by decide) (by decide)
  have hread : reference H (lit "#x27;" ++ rest) = some (H.number 0x27, 5) := rfl
  rw [hread, hnumber]

/-- A character other than `&` stays. -/
theorem unescape_cons_of_ne (H : Tables) {c : CodePoint} (h : c ≠ 0x26) (s : PyStr) :
    unescape H (c :: s) = c :: unescape H s := by
  rw [unescape, unescapeFrom, if_neg h]
  rfl

/-- What an escaped character is read as. -/
theorem unescape_escapeChar (H : Tables) (c : CodePoint) (s : PyStr) :
    unescape H (escapeChar c ++ s) = c :: unescape H s := by
  unfold escapeChar
  split
  · next h =>
      rw [h]
      exact unescapeFrom_reference (lit "amp;")
        (reference_named (lit "amp") (by decide) rfl (by decide) H.html5_amp s)
  split
  · next h =>
      rw [h]
      exact unescapeFrom_reference (lit "lt;")
        (reference_named (lit "lt") (by decide) rfl (by decide) H.html5_lt s)
  split
  · next h =>
      rw [h]
      exact unescapeFrom_reference (lit "gt;")
        (reference_named (lit "gt") (by decide) rfl (by decide) H.html5_gt s)
  split
  · next h =>
      rw [h]
      exact unescapeFrom_reference (lit "quot;")
        (reference_named (lit "quot") (by decide) rfl (by decide) H.html5_quot s)
  split
  · next h =>
      rw [h]
      exact unescapeFrom_reference (lit "#x27;") (reference_apostrophe H s)
  · next hamp _ _ _ _ => exact unescape_cons_of_ne H hamp s

/-- **Round trip**: escaped text is read as it was. -/
theorem unescape_escape (H : Tables) (s : PyStr) : unescape H (escape s) = s := by
  induction s with
  | nil => rfl
  | cons c cs ih => rw [escape_cons, unescape_escapeChar, ih]

end Html

end SushidaOs
