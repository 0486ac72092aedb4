import SushidaOs.Utf8

/-!
# SushidaOs.Shell

What the scripts use of bash: strings of bytes, command substitution, the two
parameter expansions at a colon, a `grep` for a whole line, `case` patterns,
and the strings exchanged with Python.

A script never has a NUL in a string: command substitution drops it.  Starting
a program does not fail.
-/

namespace SushidaOs

/-- A string of the shell. -/
abbrev ShStr := List UInt8

/-- Exit status and standard output of a command. -/
structure Completed where
  status : Nat
  output : List UInt8
  deriving DecidableEq, Repr

namespace Sh

/-- An ASCII word of a script. -/
def lit (s : String) : ShStr := Utf8.asciiBytes (.lit s)

/-- `$(command)`: without NULs and without the line feeds at the end. -/
def capture (output : List UInt8) : ShStr :=
  ((output.filter fun b => b != 0).reverse.dropWhile fun b => b == 0x0a).reverse

/-- `${s%%:*}`. -/
def beforeColon (s : ShStr) : ShStr := s.takeWhile fun b => b != 0x3a

/-- `${s#*:}`: the whole string when there is no colon. -/
def afterColon (s : ShStr) : ShStr :=
  match s.dropWhile fun b => b != 0x3a with
  | [] => s
  | _ :: rest => rest

/-- `grep -qx word`. -/
def grepLine (word : ShStr) (output : List UInt8) : Bool :=
  (output.splitOn 0x0a).any fun line => line == word

/-- `command | grep -qx word` under `set -o pipefail`. -/
def pipeGrep (command : Completed) (word : ShStr) : Bool :=
  command.status == 0 && grepLine word command.output

/-- An argument as `sys.argv` has it. -/
def arg (s : ShStr) : PyStr := Utf8.decodeEscape s

/-- A Python program compares its argument with an ASCII literal. -/
theorem arg_eq_lit_iff {s : ShStr} {w : String} (hw : ∀ c ∈ PyStr.lit w, c.val < 0x80) :
    arg s = .lit w ↔ s = lit w := Utf8.decodeEscape_eq_iff hw

/-- What `print(s)` writes. -/
def printLine (s : PyStr) : List UInt8 := s.flatMap CodePoint.utf8 ++ [0x0a]

/-- Output that starts with something else than NULs and line feeds. -/
theorem capture_append {front : List UInt8} {b : UInt8} (hfront : ∀ x ∈ front, x ≠ 0)
    (hb : b ≠ 0) (hlf : b ≠ 0x0a) (output : List UInt8) :
    capture (front ++ b :: output) = front ++ b :: capture output := by
  have hkeep : front.filter (fun x => x != 0) = front := by
    rw [List.filter_eq_self]
    intro x hx
    simpa using hfront x hx
  simp only [capture, List.filter_append, hkeep, List.filter_cons, bne_iff_ne, ne_eq, hb,
    not_false_eq_true, if_true, List.reverse_append, List.reverse_cons, List.dropWhile_append,
    List.append_assoc]
  split
  · next hempty =>
      have hnil := List.isEmpty_iff.mp hempty
      simp [hnil, hlf]
  · simp

/-! ## `case` -/

/-- A part of a pattern: quoted or ordinary characters, or `*`. -/
inductive Glob where
  | word (w : ShStr)
  | star
  deriving DecidableEq, Repr

/-- The pattern matches the whole string. -/
def globMatches : List Glob → ShStr → Bool
  | [], s => s.isEmpty
  | .word w :: rest, s => w.isPrefixOf s && globMatches rest (s.drop w.length)
  | .star :: rest, s => s.tails.any fun tail => globMatches rest tail

/-- One of the patterns `p|q|...` matches. -/
def caseMatches (patterns : List (List Glob)) (s : ShStr) : Bool :=
  patterns.any fun pattern => globMatches pattern s

@[simp] theorem globMatches_word (w s : ShStr) : globMatches [.word w] s = true ↔ s = w := by
  simp only [globMatches, Bool.and_eq_true, List.isPrefixOf_iff_prefix, List.isEmpty_iff]
  constructor
  · rintro ⟨⟨t, rfl⟩, ht⟩
    rw [List.drop_left] at ht
    rw [ht, List.append_nil]
  · rintro rfl
    exact ⟨List.prefix_refl s, List.drop_length⟩

@[simp] theorem globMatches_word_star (w s : ShStr) :
    globMatches [.word w, .star] s = true ↔ w <+: s := by
  have hstar : globMatches [.star] (s.drop w.length) = true := by
    simp only [globMatches, List.any_eq_true, List.mem_tails]
    exact ⟨[], List.nil_suffix, rfl⟩
  rw [globMatches, hstar, Bool.and_true, List.isPrefixOf_iff_prefix]

/-- `*word*` -/
@[simp] theorem globMatches_star_word_star (w s : ShStr) :
    globMatches [.star, .word w, .star] s = true ↔ w <:+: s := by
  rw [globMatches, List.any_eq_true]
  simp only [List.mem_tails, globMatches_word_star]
  constructor
  · rintro ⟨tail, ⟨front, rfl⟩, back, rfl⟩
    exact ⟨front, back, by rw [List.append_assoc]⟩
  · rintro ⟨front, back, rfl⟩
    exact ⟨w ++ back, ⟨front, by rw [List.append_assoc]⟩, back, rfl⟩

/-! ## strings of a Python program -/

/-- The bytes of a character under `surrogateescape`. -/
def escapeUtf8 (c : CodePoint) : List UInt8 :=
  if 0xdc80 ≤ c.val ∧ c.val ≤ 0xdcff then [UInt8.ofNat (c.val - 0xdc00)] else c.utf8

/-- `os.fsencode(s)`.  No shell string stands for the other surrogates, and for
a NUL; they keep their bytes here. -/
def ofStr (s : PyStr) : ShStr := s.flatMap escapeUtf8

theorem escapeUtf8_ascii {c : CodePoint} (hc : c.val < 0x80) :
    escapeUtf8 c = [UInt8.ofNat c.val] := by
  rw [escapeUtf8, if_neg (by omega), CodePoint.utf8, if_pos hc]

/-- Other characters begin with a byte from 0x80 on. -/
theorem escapeUtf8_other {c : CodePoint} (hc : 0x80 ≤ c.val) :
    ∃ b bs, escapeUtf8 c = b :: bs ∧ 0x80 ≤ b.toNat := by
  have hlt := c.isLt
  have hlead : ∀ n : Nat, 0x80 ≤ n → n < 256 → 0x80 ≤ (UInt8.ofNat n).toNat := by
    intro n hlo hhi
    rwa [Utf8.toNat_ofNat_of_lt hhi]
  unfold escapeUtf8 CodePoint.utf8
  split
  · exact ⟨_, _, rfl, hlead _ (by omega) (by omega)⟩
  rw [if_neg (by omega)]
  split
  · exact ⟨_, _, rfl, hlead _ (by omega) (by omega)⟩
  split
  · exact ⟨_, _, rfl, hlead _ (by omega) (by omega)⟩
  · exact ⟨_, _, rfl, hlead _ (by omega) (by omega)⟩

/-- A shell string starts with an ASCII word when the text does. -/
theorem lit_prefix_ofStr_iff {w s : PyStr} (hw : ∀ c ∈ w, c.val < 0x80) :
    Utf8.asciiBytes w <+: ofStr s ↔ w <+: s := by
  induction w generalizing s with
  | nil => simp [Utf8.asciiBytes]
  | cons c cs ih =>
      have hc := hw c List.mem_cons_self
      cases s with
      | nil => simp [Utf8.asciiBytes, ofStr]
      | cons d ds =>
          rw [Utf8.asciiBytes, List.map_cons, ofStr, List.flatMap_cons, List.cons_prefix_cons]
          by_cases hd : d.val < 0x80
          · have hbyte : UInt8.ofNat c.val = UInt8.ofNat d.val ↔ c = d := by
              rw [← UInt8.toNat_inj, Utf8.toNat_ofNat_of_lt (by omega),
                Utf8.toNat_ofNat_of_lt (by omega), Fin.ext_iff]
            rw [escapeUtf8_ascii hd, List.cons_append, List.nil_append, List.cons_prefix_cons,
              hbyte, ← ih fun x hx => hw x (List.mem_cons_of_mem c hx)]
            rfl
          · obtain ⟨b, bs, hbytes, hb⟩ := escapeUtf8_other (c := d) (by omega)
            rw [hbytes, List.cons_append, List.cons_prefix_cons]
            constructor
            · rintro ⟨heq, -⟩
              rw [← heq, Utf8.toNat_ofNat_of_lt (by omega)] at hb
              omega
            · rintro ⟨rfl, -⟩
              contradiction

/-- ASCII text is its own bytes. -/
theorem ofStr_ascii {s : PyStr} (hs : ∀ c ∈ s, c.val < 0x80) : ofStr s = Utf8.asciiBytes s := by
  induction s with
  | nil => rfl
  | cons c cs ih =>
      rw [ofStr, List.flatMap_cons, escapeUtf8_ascii (hs c List.mem_cons_self)]
      have hcs := ih fun d hd => hs d (List.mem_cons_of_mem c hd)
      rw [ofStr] at hcs
      rw [hcs]
      rfl

/-- A shell string is an ASCII word when the text is. -/
theorem ofStr_eq_lit_iff {w s : PyStr} (hw : ∀ c ∈ w, c.val < 0x80) :
    ofStr s = Utf8.asciiBytes w ↔ s = w := by
  constructor
  · intro h
    have hpre : w <+: s := (lit_prefix_ofStr_iff hw).mp (by rw [h])
    obtain ⟨rest, rfl⟩ := hpre
    rw [ofStr, List.flatMap_append, ← ofStr, ← ofStr, ofStr_ascii hw] at h
    have hnil : ofStr rest = [] := List.append_right_eq_self.mp h
    cases rest with
    | nil => rw [List.append_nil]
    | cons c cs =>
        rw [ofStr, List.flatMap_cons, List.append_eq_nil_iff] at hnil
        by_cases hc : c.val < 0x80
        · rw [escapeUtf8_ascii hc] at hnil
          exact absurd hnil.1 (List.cons_ne_nil _ _)
        · obtain ⟨b, bs, hbytes, -⟩ := escapeUtf8_other (c := c) (by omega)
          rw [hbytes] at hnil
          exact absurd hnil.1 (List.cons_ne_nil _ _)
  · rintro rfl
    exact ofStr_ascii hw

end Sh

end SushidaOs
