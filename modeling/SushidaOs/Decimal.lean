import Mathlib.Data.Nat.Digits.Lemmas
import SushidaOs.PyStr

/-!
# SushidaOs.Decimal

`str(n)` for an integer, and `int` as its inverse.

The conversion back refuses what has more than `intMaxStrDigits` digits; this
is the only integer `str` writes that `int` does not read.
-/

namespace SushidaOs

namespace PyStr

/-- The ASCII character of a decimal digit. -/
def digitChar (d : Nat) : CodePoint := Fin.ofNat _ (0x30 + d)

/-- The decimal digits of a number, the most significant first. -/
def decimalDigits (n : Nat) : List Nat := if n = 0 then [0] else (Nat.digits 10 n).reverse

/-- `str(n)` for a natural number. -/
def ofNat (n : Nat) : PyStr := (decimalDigits n).map digitChar

/-- `str(n)`. -/
def ofInt (n : Int) : PyStr := if n < 0 then 0x2d :: ofNat n.natAbs else ofNat n.natAbs

/-! ## digits -/

theorem digitChar_val {d : Nat} (h : d < 10) : (digitChar d).val = 0x30 + d := by
  rw [digitChar, Fin.val_ofNat]
  omega

theorem lt_of_mem_decimalDigits {n d : Nat} (h : d ∈ decimalDigits n) : d < 10 := by
  unfold decimalDigits at h
  split at h
  · rw [List.mem_singleton] at h
    omega
  · exact Nat.digits_lt_base (by omega) (List.mem_reverse.mp h)

theorem decimalDigits_ne_nil (n : Nat) : decimalDigits n ≠ [] := by
  unfold decimalDigits
  split
  · simp
  · next h =>
      rw [ne_eq, List.reverse_eq_nil_iff]
      exact Nat.digits_ne_nil_iff_ne_zero.mpr h

/-- The value of the digits. -/
theorem foldl_decimalDigits (n : Nat) :
    (decimalDigits n).foldl (fun m d => 10 * m + d) 0 = n := by
  unfold decimalDigits
  split
  · next h => rw [h]; rfl
  · have hfold : ∀ l : List Nat,
        l.foldr (fun d m => 10 * m + d) 0 = Nat.ofDigits 10 l := by
      intro l
      induction l with
      | nil => rfl
      | cons d ds ih => rw [List.foldr_cons, ih, Nat.ofDigits_cons, Nat.add_comm]
    rw [List.foldl_reverse, hfold, Nat.ofDigits_digits]

/-- A number below a power of ten has so many digits. -/
theorem length_decimalDigits_le {n k : Nat} (hk : 0 < k) :
    (decimalDigits n).length ≤ k ↔ n < 10 ^ k := by
  unfold decimalDigits
  split
  · next h =>
      have hpos : 0 < 10 ^ k := Nat.pow_pos (by omega)
      rw [h, List.length_singleton]
      omega
  · rw [List.length_reverse]
    exact Nat.digits_length_le_iff (by omega) n

/-! ## the inverse -/

theorem digit_digitChar (U : UnicodeData) {d : Nat} (h : d < 10) :
    digit U (digitChar d) = some d := by
  have hval := digitChar_val h
  have hrange : (decide (0x30 ≤ (digitChar d).val) && decide ((digitChar d).val ≤ 0x39)) =
      true := by
    rw [Bool.and_eq_true, decide_eq_true_eq, decide_eq_true_eq]
    omega
  have hvalue : (digitChar d).val - 0x30 = d := by omega
  rw [digit, if_pos (by omega), CodePoint.asciiDigit, if_pos hrange, hvalue]

theorem intDigits_digitChar (U : UnicodeData) (acc ds : List Nat) (h : ∀ d ∈ ds, d < 10)
    (hne : acc ≠ [] ∨ ds ≠ []) :
    intDigits U acc false (ds.map digitChar) = some (acc.reverse ++ ds) := by
  induction ds generalizing acc with
  | nil =>
      have hacc : acc ≠ [] := by simpa using hne
      simp [intDigits, hacc]
  | cons d ds ih =>
      have hd : d < 10 := h d List.mem_cons_self
      have hunder : digitChar d ≠ 0x5f := by
        have hval := digitChar_val hd
        intro heq
        rw [heq] at hval
        have hnum : ((0x5f : CodePoint).val) = 0x5f := rfl
        omega
      rw [List.map_cons, intDigits, if_neg hunder, digit_digitChar U hd]
      simp only
      rw [ih (d :: acc) (fun e he => h e (List.mem_cons_of_mem d he)) (.inl (by simp))]
      simp

theorem digitChar_not_space {d : Nat} (h : d < 10) : (digitChar d).isIntSpace = false := by
  have hval := digitChar_val h
  have hne : digitChar d ≠ 0x20 := by
    intro heq
    rw [heq] at hval
    have hnum : ((0x20 : CodePoint).val) = 0x20 := rfl
    omega
  simp only [CodePoint.isIntSpace, hne, decide_false, Bool.or_false, Bool.or_eq_false_iff,
    Bool.and_eq_false_iff, decide_eq_false_iff_not]
  omega

/-- Nothing is trimmed off a text that neither starts nor ends with a space. -/
theorem trim_eq {p : CodePoint → Bool} {s : PyStr} (h : ∀ c ∈ s, p c = false) :
    ((s.dropWhile p).reverse.dropWhile p).reverse = s := by
  have hkeep : ∀ t : PyStr, (∀ c ∈ t, p c = false) → t.dropWhile p = t := by
    intro t ht
    cases t with
    | nil => rfl
    | cons c cs => rw [List.dropWhile_cons, ht c List.mem_cons_self]; rfl
  rw [hkeep s h, hkeep s.reverse fun c hc => h c (List.mem_reverse.mp hc), List.reverse_reverse]

theorem ofNat_digits {n : Nat} {c : CodePoint} (h : c ∈ ofNat n) :
    ∃ d < 10, c = digitChar d := by
  obtain ⟨d, hd, rfl⟩ := List.mem_map.mp h
  exact ⟨d, lt_of_mem_decimalDigits hd, rfl⟩

/-- The characters of `str(n)`. -/
theorem forall_mem_ofInt {p : CodePoint → Prop} (hminus : p 0x2d)
    (hdigit : ∀ d < 10, p (digitChar d)) (n : Int) : ∀ c ∈ ofInt n, p c := by
  intro c hc
  unfold ofInt at hc
  split at hc
  · cases List.mem_cons.mp hc with
    | inl heq => rw [heq]; exact hminus
    | inr hmem =>
        obtain ⟨d, hd, rfl⟩ := ofNat_digits hmem
        exact hdigit d hd
  · obtain ⟨d, hd, rfl⟩ := ofNat_digits hc
    exact hdigit d hd

/-- A written number has no white space. -/
theorem ofInt_not_space (n : Int) : ∀ c ∈ ofInt n, c.isIntSpace = false :=
  forall_mem_ofInt (by decide) (fun _ hd => digitChar_not_space hd) n

/-- `int` reads the digits that `str` writes. -/
theorem intDigits_ofNat (U : UnicodeData) (n : Nat) :
    intDigits U [] false (ofNat n) = some (decimalDigits n) :=
  intDigits_digitChar U [] (decimalDigits n) (fun _ hd => lt_of_mem_decimalDigits hd)
    (.inr (decimalDigits_ne_nil n))

/-- `ofNat` starts with a digit, so there is no sign to read. -/
theorem ofNat_cons (n : Nat) : ∃ d ds, d < 10 ∧ ofNat n = digitChar d :: ds := by
  cases hdigits : decimalDigits n with
  | nil => exact absurd hdigits (decimalDigits_ne_nil n)
  | cons d ds =>
      have hd : d < 10 := lt_of_mem_decimalDigits (n := n) (by rw [hdigits]; simp)
      exact ⟨d, ds.map digitChar, hd, by rw [ofNat, hdigits, List.map_cons]⟩

/-- The sign of an integer literal and what follows it. -/
def readSign : PyStr → Int × PyStr
  | 0x2d :: rest => (-1, rest)
  | 0x2b :: rest => (1, rest)
  | rest => (1, rest)

/-- A digit is no sign. -/
theorem readSign_digit {d : Nat} (h : d < 10) (s : PyStr) :
    readSign (digitChar d :: s) = (1, digitChar d :: s) := by
  have hval := digitChar_val h
  unfold readSign
  split
  · next hminus =>
      have hd : digitChar d = 0x2d := (List.cons.inj hminus).1
      rw [hd] at hval
      have hnum : ((0x2d : CodePoint).val) = 0x2d := rfl
      omega
  · next hplus =>
      have hd : digitChar d = 0x2b := (List.cons.inj hplus).1
      rw [hd] at hval
      have hnum : ((0x2b : CodePoint).val) = 0x2b := rfl
      omega
  · rfl

theorem readSign_ofInt (n : Int) :
    readSign (ofInt n) = (if n < 0 then -1 else 1, ofNat n.natAbs) := by
  unfold ofInt
  by_cases hneg : n < 0
  · rw [if_pos hneg, if_pos hneg]
    rfl
  · obtain ⟨d, ds, hd, hcons⟩ := ofNat_cons n.natAbs
    rw [if_neg hneg, if_neg hneg, hcons, readSign_digit hd]

theorem toInt_eq (U : UnicodeData) (s : PyStr) :
    toInt U s =
      let signed := readSign
        ((s.dropWhile CodePoint.isIntSpace).reverse.dropWhile CodePoint.isIntSpace).reverse
      match intDigits U [] false signed.2 with
      | some ds =>
          if intMaxStrDigits < ds.length then .error .valueError
          else .ok (signed.1 * (ds.foldl (fun n d => 10 * n + d) 0 : Nat))
      | none => .error .valueError := rfl

/-- A text of digits is an integer, unless there are too many of them. -/
theorem toInt_digits (U : UnicodeData) {ds : List Nat} (h : ∀ d ∈ ds, d < 10) (hne : ds ≠ []) :
    toInt U (ds.map digitChar) =
      if intMaxStrDigits < ds.length then .error .valueError
      else .ok (ds.foldl (fun n d => 10 * n + d) 0 : Nat) := by
  have hspace : ∀ c ∈ ds.map digitChar, c.isIntSpace = false := by
    intro c hc
    obtain ⟨d, hd, rfl⟩ := List.mem_map.mp hc
    exact digitChar_not_space (h d hd)
  have hsign : readSign (ds.map digitChar) = (1, ds.map digitChar) := by
    cases ds with
    | nil => contradiction
    | cons d ds => exact readSign_digit (h d List.mem_cons_self) _
  have hdigits := intDigits_digitChar U [] ds h (.inr hne)
  rw [List.reverse_nil, List.nil_append] at hdigits
  simp only [toInt_eq, trim_eq hspace, hsign, hdigits, one_mul]

/-- **Round trip**: `int(str(n))` is `n`, unless there are too many digits. -/
theorem toInt_ofInt (U : UnicodeData) (n : Int) :
    (ofInt n).toInt U =
      if n.natAbs < 10 ^ intMaxStrDigits then .ok n else .error .valueError := by
  have htrim := trim_eq (p := CodePoint.isIntSpace) (s := ofInt n) (ofInt_not_space n)
  have hlen : (intMaxStrDigits < (decimalDigits n.natAbs).length) ↔
      ¬ n.natAbs < 10 ^ intMaxStrDigits := by
    rw [← length_decimalDigits_le (by decide)]
    omega
  have hvalue : (if n < 0 then (-1 : Int) else 1) * (n.natAbs : Nat) = n := by
    split
    · omega
    · omega
  simp only [toInt_eq, htrim, readSign_ofInt, intDigits_ofNat, foldl_decimalDigits, hvalue, hlen]
  by_cases h : n.natAbs < 10 ^ intMaxStrDigits
  · rw [if_neg (not_not.mpr h), if_pos h]
  · rw [if_pos h, if_neg h]

end PyStr

end SushidaOs
