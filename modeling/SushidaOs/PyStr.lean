import Mathlib.Data.List.Infix

/-!
# SushidaOs.PyStr

Python's `str` as the backend uses it: a sequence of code points, lone
surrogates included.  The operations follow CPython 3.11–3.13:

* `encodeUtf8` — `str.encode("utf-8")`, which raises on a surrogate;
* `splitlines`, `split`, `strip`, `partition`, `rstrip` of a given character;
* `contains` — the substring test `sub in s`;
* `toInt` — `int(s)`, with its whitespace, underscore and digit-count rules.

The parts of the Unicode database that the backend reaches (`str.upper`,
`str.casefold` and the decimal digits beyond ASCII) are the fields of
`UnicodeData`; nothing here depends on which version of the tables CPython
was built with.
-/

namespace SushidaOs

/-- A Unicode code point; unlike `Char` this includes the surrogates. -/
abbrev CodePoint := Fin 0x110000

/-- For the numerals of `CodePoint`; the `Zero` is the one of `Fin`'s numerals. -/
instance CodePoint.neZero : @NeZero Nat Zero.ofOfNat0 0x110000 := Nat.instNeZeroSucc

/-- A Python string. -/
abbrev PyStr := List CodePoint

/-- By name, so that every definition that tests membership finds the same instance. -/
instance PyStr.lawfulBEq : LawfulBEq PyStr := inferInstance

/-- The Python exceptions the modelled code raises or catches. -/
inductive PyExc where
  | osError
  | timeoutExpired
  | valueError
  | unicodeEncodeError
  | unicodeDecodeError
  deriving DecidableEq, Repr

namespace CodePoint

/-- The code point of a Lean character. -/
def ofChar (c : Char) : CodePoint :=
  ⟨c.toNat, by rcases c.valid with h | h <;> (simp only [Char.toNat]; omega)⟩

/-- `0xd800 ≤ ord(c) ≤ 0xdfff`: not encodable. -/
def isSurrogate (c : CodePoint) : Bool := 0xd800 ≤ c.val && c.val ≤ 0xdfff

/-- The UTF-8 bytes of a code point. -/
def utf8 (c : CodePoint) : List UInt8 :=
  if c.val < 0x80 then [UInt8.ofNat c.val]
  else if c.val < 0x800 then
    [UInt8.ofNat (0xc0 + c.val / 0x40), UInt8.ofNat (0x80 + c.val % 0x40)]
  else if c.val < 0x10000 then
    [UInt8.ofNat (0xe0 + c.val / 0x1000), UInt8.ofNat (0x80 + c.val / 0x40 % 0x40),
      UInt8.ofNat (0x80 + c.val % 0x40)]
  else
    [UInt8.ofNat (0xf0 + c.val / 0x40000), UInt8.ofNat (0x80 + c.val / 0x1000 % 0x40),
      UInt8.ofNat (0x80 + c.val / 0x40 % 0x40), UInt8.ofNat (0x80 + c.val % 0x40)]

/-- The separators of `str.splitlines`. -/
def isLineBreak (c : CodePoint) : Bool :=
  c ∈ ([0x0a, 0x0b, 0x0c, 0x0d, 0x1c, 0x1d, 0x1e, 0x85, 0x2028, 0x2029] : List CodePoint)

/-- `str.isspace`, the separators of `str.split()` and `str.strip()`. -/
def isSpace (c : CodePoint) : Bool :=
  c ∈ ([0x09, 0x0a, 0x0b, 0x0c, 0x0d, 0x1c, 0x1d, 0x1e, 0x1f, 0x20, 0x85, 0xa0, 0x1680,
    0x2028, 0x2029, 0x202f, 0x205f, 0x3000] : List CodePoint) ||
    (0x2000 ≤ c.val && c.val ≤ 0x200a)

/-- The whitespace `int` skips: C's `isspace` below 127, `str.isspace` above. -/
def isIntSpace (c : CodePoint) : Bool :=
  (0x09 ≤ c.val && c.val ≤ 0x0d) || c = 0x20 || (127 ≤ c.val && c.isSpace)

/-- The value of an ASCII digit. -/
def asciiDigit (c : CodePoint) : Option Nat :=
  if 0x30 ≤ c.val && c.val ≤ 0x39 then some (c.val - 0x30) else none

end CodePoint

/-- What the backend uses of the Unicode database.  The fields ending in
`_ascii` state the part of it that every version agrees on. -/
structure UnicodeData where
  /-- `str.upper`, code point by code point. -/
  upper : CodePoint → PyStr
  /-- `str.casefold`, code point by code point. -/
  casefold : CodePoint → PyStr
  /-- `unicodedata.decimal` outside ASCII. -/
  decimal : CodePoint → Option Nat
  upper_ascii : ∀ c : CodePoint, c.val < 0x80 →
    upper c = [if 0x61 ≤ c.val ∧ c.val ≤ 0x7a then c - 0x20 else c]
  casefold_ascii : ∀ c : CodePoint, c.val < 0x80 →
    casefold c = [if 0x41 ≤ c.val ∧ c.val ≤ 0x5a then c + 0x20 else c]

/-- The database cut down to ASCII. -/
def UnicodeData.ascii : UnicodeData where
  upper c := [if 0x61 ≤ c.val ∧ c.val ≤ 0x7a then c - 0x20 else c]
  casefold c := [if 0x41 ≤ c.val ∧ c.val ≤ 0x5a then c + 0x20 else c]
  decimal _ := none
  upper_ascii _ _ := rfl
  casefold_ascii _ _ := rfl

namespace PyStr

/-- A Python string literal. -/
def lit (s : String) : PyStr := s.toList.map CodePoint.ofChar

/-- A literal by its characters; rewriting with this spares the kernel the bytes. -/
theorem lit_ofList (l : List Char) : lit (String.ofList l) = l.map CodePoint.ofChar := by
  rw [lit, String.toList_ofList]

/-- `s.encode("utf-8")`. -/
def encodeUtf8 : PyStr → Except PyExc (List UInt8)
  | [] => .ok []
  | c :: cs =>
      if c.isSurrogate then .error .unicodeEncodeError
      else match encodeUtf8 cs with
        | .ok bs => .ok (c.utf8 ++ bs)
        | .error e => .error e

/-- No surrogate: the strings `encodeUtf8` accepts. -/
def Encodable (s : PyStr) : Prop := ∀ c ∈ s, c.isSurrogate = false

theorem Encodable.append {s t : PyStr} (hs : Encodable s) (ht : Encodable t) :
    Encodable (s ++ t) := by
  intro c hc
  cases List.mem_append.mp hc with
  | inl h => exact hs c h
  | inr h => exact ht c h

/-- A literal has no surrogates, since a Lean character is none. -/
theorem encodable_lit (s : String) : Encodable (lit s) := by
  intro c hc
  obtain ⟨ch, -, rfl⟩ := List.mem_map.mp hc
  have hvalid : ch.toNat < 0xd800 ∨ (0xdfff < ch.toNat ∧ ch.toNat < 0x110000) := ch.valid
  have hval : (CodePoint.ofChar ch).val = ch.toNat := rfl
  simp [CodePoint.isSurrogate, hval]
  omega

theorem encodable_of_encodeUtf8 {s : PyStr} {bs : List UInt8} (h : encodeUtf8 s = .ok bs) :
    Encodable s := by
  induction s generalizing bs with
  | nil => intro c hc; contradiction
  | cons c cs ih =>
      simp only [encodeUtf8] at h
      split at h
      · contradiction
      · next hc =>
          cases hcs : encodeUtf8 cs with
          | error e => simp only [hcs] at h; contradiction
          | ok bs' =>
              intro d hd
              cases List.mem_cons.mp hd with
              | inl heq => rw [heq]; simpa using hc
              | inr hmem => exact ih hcs d hmem

theorem encodeUtf8_of_encodable {s : PyStr} (h : Encodable s) :
    ∃ bs, encodeUtf8 s = .ok bs := by
  induction s with
  | nil => exact ⟨[], rfl⟩
  | cons c cs ih =>
      obtain ⟨bs, hbs⟩ := ih fun d hd => h d (List.mem_cons_of_mem c hd)
      have hc : c.isSurrogate = false := h c List.mem_cons_self
      exact ⟨c.utf8 ++ bs, by simp [encodeUtf8, hc, hbs]⟩

/-- A check of the characters one by one. -/
theorem forall_of_all {p : CodePoint → Prop} [DecidablePred p] {s : PyStr}
    (h : s.all (fun c => decide (p c)) = true) : ∀ c ∈ s, p c := by
  intro c hc
  exact of_decide_eq_true (List.all_eq_true.mp h c hc)

/-- `sub in s`. -/
def contains (sub : PyStr) : PyStr → Bool
  | [] => sub.isEmpty
  | c :: cs => sub.isPrefixOf (c :: cs) || contains sub cs

/-- `s.splitlines()`: `cur` is the current line in reverse, `cr` records that
the last character was a carriage return, whose line feed belongs to it. -/
def splitlinesAux (cur : PyStr) (cr : Bool) : PyStr → List PyStr
  | [] => if cur.isEmpty then [] else [cur.reverse]
  | c :: cs =>
      if cr && c = 0x0a then splitlinesAux cur false cs
      else if c.isLineBreak then cur.reverse :: splitlinesAux [] (c = 0x0d) cs
      else splitlinesAux (c :: cur) false cs

def splitlines (s : PyStr) : List PyStr := splitlinesAux [] false s

/-- `s.split()`: the maximal runs of non-space characters. -/
def splitAux (cur : PyStr) : PyStr → List PyStr
  | [] => if cur.isEmpty then [] else [cur.reverse]
  | c :: cs =>
      if c.isSpace then
        if cur.isEmpty then splitAux [] cs else cur.reverse :: splitAux [] cs
      else splitAux (c :: cur) cs

def split (s : PyStr) : List PyStr := splitAux [] s

/-- `s.strip()`. -/
def strip (s : PyStr) : PyStr :=
  ((s.dropWhile CodePoint.isSpace).reverse.dropWhile CodePoint.isSpace).reverse

/-- `s.rstrip(c)` for a one-character string. -/
def rstrip (c : CodePoint) (s : PyStr) : PyStr := (s.reverse.dropWhile (· = c)).reverse

/-- `s.partition(c)`: before, the separator found or not, after. -/
def partition (c : CodePoint) : PyStr → PyStr × Bool × PyStr
  | [] => ([], false, [])
  | d :: ds =>
      if d = c then ([], true, ds)
      else let (head, found, tail) := partition c ds
        (d :: head, found, tail)

/-- `sep.join(parts)`. -/
def join (sep : PyStr) (parts : List PyStr) : PyStr := (parts.intersperse sep).flatten

/-- `s.upper()`. -/
def upper (U : UnicodeData) (s : PyStr) : PyStr := s.flatMap U.upper

/-- `s.casefold()`. -/
def casefold (U : UnicodeData) (s : PyStr) : PyStr := s.flatMap U.casefold

/-- The order of Python strings: by code points, a proper prefix first. -/
def lt : PyStr → PyStr → Bool
  | [], [] => false
  | [], _ :: _ => true
  | _ :: _, [] => false
  | c :: cs, d :: ds => c < d || (c = d && lt cs ds)

/-- The decimal value of a character for `int` and for `\d`. -/
def digit (U : UnicodeData) (c : CodePoint) : Option Nat :=
  if c.val < 0x80 then c.asciiDigit else U.decimal c

/-- The digits of an integer literal, single underscores between digits;
`under` records that an underscore has just been read. -/
def intDigits (U : UnicodeData) (acc : List Nat) (under : Bool) : PyStr → Option (List Nat)
  | [] => if under || acc.isEmpty then none else some acc.reverse
  | c :: cs =>
      if c = 0x5f then
        if under || acc.isEmpty then none else intDigits U acc true cs
      else match digit U c with
        | some d => intDigits U (d :: acc) false cs
        | none => none

/-- `sys.get_int_max_str_digits()`. -/
def intMaxStrDigits : Nat := 4300

/-- `int(s)`. -/
def toInt (U : UnicodeData) (s : PyStr) : Except PyExc Int :=
  let body := ((s.dropWhile CodePoint.isIntSpace).reverse.dropWhile CodePoint.isIntSpace).reverse
  let (sign, digits) := match body with
    | 0x2d :: rest => ((-1 : Int), rest)
    | 0x2b :: rest => (1, rest)
    | rest => (1, rest)
  match intDigits U [] false digits with
  | some ds =>
      if intMaxStrDigits < ds.length then .error .valueError
      else .ok (sign * (ds.foldl (fun n d => 10 * n + d) 0 : Nat))
  | none => .error .valueError

end PyStr

end SushidaOs
