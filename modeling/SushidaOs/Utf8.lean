import SushidaOs.PyStr

/-!
# SushidaOs.Utf8

`bytes.decode("utf-8")` with its error handlers, and the text layer above it.

`sequence` looks at the front of a buffer: a well-formed sequence gives its
code point and its length, anything else the length of the part that the
error handler is given (the longest start of a well-formed sequence, or one
byte).  The three handlers the backend uses differ only in what they make of
that part:

* `decodeStrict` — raises;
* `decodeReplace` — one U+FFFD;
* `decodeEscape` — `surrogateescape`, one lone surrogate for each byte.

The *round trips* say that each of them inverts the encoder; the *ASCII
lemmas* say that the handlers neither lose nor invent ASCII characters.
-/

namespace SushidaOs

namespace Utf8

/-! ## one sequence -/

/-- A continuation byte. -/
def isTail (b : UInt8) : Bool := 0x80 ≤ b.toNat && b.toNat ≤ 0xbf

/-- The second bytes that may follow the lead byte of a sequence of three or
four. -/
def isSecond (lead b : UInt8) : Bool :=
  if lead.toNat = 0xe0 then 0xa0 ≤ b.toNat && b.toNat ≤ 0xbf
  else if lead.toNat = 0xed then 0x80 ≤ b.toNat && b.toNat ≤ 0x9f
  else if lead.toNat = 0xf0 then 0x90 ≤ b.toNat && b.toNat ≤ 0xbf
  else if lead.toNat = 0xf4 then 0x80 ≤ b.toNat && b.toNat ≤ 0x8f
  else isTail b

/-- What stands at the front of a buffer. -/
inductive Front where
  /-- A code point, written in `length` bytes. -/
  | char (c : CodePoint) (length : Nat)
  /-- `length` bytes that begin no well-formed sequence. -/
  | malformed (length : Nat)
  deriving DecidableEq, Repr

def twoBytes (lead : UInt8) : List UInt8 → Front
  | b :: _ =>
      if isTail b then .char (Fin.ofNat _ ((lead.toNat - 0xc0) * 0x40 + (b.toNat - 0x80))) 2
      else .malformed 1
  | [] => .malformed 1

def threeBytes (lead : UInt8) : List UInt8 → Front
  | b :: rest =>
      if isSecond lead b then
        match rest with
        | c :: _ =>
            if isTail c then
              .char (Fin.ofNat _ ((lead.toNat - 0xe0) * 0x1000 + (b.toNat - 0x80) * 0x40 +
                (c.toNat - 0x80))) 3
            else .malformed 2
        | [] => .malformed 2
      else .malformed 1
  | [] => .malformed 1

def fourBytes (lead : UInt8) : List UInt8 → Front
  | b :: rest =>
      if isSecond lead b then
        match rest with
        | c :: rest' =>
            if isTail c then
              match rest' with
              | d :: _ =>
                  if isTail d then
                    .char (Fin.ofNat _ ((lead.toNat - 0xf0) * 0x40000 +
                      (b.toNat - 0x80) * 0x1000 + (c.toNat - 0x80) * 0x40 + (d.toNat - 0x80))) 4
                  else .malformed 3
              | [] => .malformed 3
            else .malformed 2
        | [] => .malformed 2
      else .malformed 1
  | [] => .malformed 1

/-- The front of the buffer `lead :: rest`. -/
def sequence (lead : UInt8) (rest : List UInt8) : Front :=
  if lead.toNat < 0x80 then .char (Fin.ofNat _ lead.toNat) 1
  else if 0xc2 ≤ lead.toNat && lead.toNat ≤ 0xdf then twoBytes lead rest
  else if 0xe0 ≤ lead.toNat && lead.toNat ≤ 0xef then threeBytes lead rest
  else if 0xf0 ≤ lead.toNat && lead.toNat ≤ 0xf4 then fourBytes lead rest
  else .malformed 1

/-! ## decoding -/

/-- The decoder with an error handler, which is given the malformed bytes;
`none` is a `UnicodeDecodeError`.  `skip` bytes belong to the sequence that has
just been read. -/
def decodeWith (onError : List UInt8 → Option PyStr) (skip : Nat) :
    List UInt8 → Option PyStr
  | [] => some []
  | b :: bs =>
      if 0 < skip then decodeWith onError (skip - 1) bs
      else match sequence b bs with
        | .char c n => (decodeWith onError (n - 1) bs).map (c :: ·)
        | .malformed n =>
            match onError ((b :: bs).take n) with
            | none => none
            | some s => (decodeWith onError (n - 1) bs).map (s ++ ·)

/-- `data.decode("utf-8", "strict")`. -/
def decodeStrict (data : List UInt8) : Option PyStr := decodeWith (fun _ => none) 0 data

/-- `data.decode("utf-8", "replace")`. -/
def decodeReplace (data : List UInt8) : PyStr :=
  (decodeWith (fun _ => some [0xfffd]) 0 data).getD []

/-- The lone surrogate of an undecodable byte. -/
def escapeByte (b : UInt8) : CodePoint := Fin.ofNat _ (0xdc00 + b.toNat)

/-- `data.decode("utf-8", "surrogateescape")`. -/
def decodeEscape (data : List UInt8) : PyStr :=
  (decodeWith (fun bad => some (bad.map escapeByte)) 0 data).getD []

/-! ## the round trips -/

theorem toNat_ofNat_of_lt {n : Nat} (h : n < 256) : (UInt8.ofNat n).toNat = n := by
  simp [Nat.mod_eq_of_lt h]

theorem isTail_ofNat {n : Nat} (h : n < 0x40) : isTail (UInt8.ofNat (0x80 + n)) = true := by
  have hb := toNat_ofNat_of_lt (n := 0x80 + n) (by omega)
  simp only [isTail, hb, Bool.and_eq_true, decide_eq_true_eq]
  omega

theorem ofNat_eq_codePoint {c : CodePoint} {n : Nat} (h : n = c.val) :
    (Fin.ofNat 0x110000 n : CodePoint) = c := by
  apply Fin.ext
  rw [h, Fin.val_ofNat, Nat.mod_eq_of_lt c.isLt]

/-- Two bytes: U+0080 to U+07FF. -/
theorem sequence_two {c : CodePoint} (hlo : 0x80 ≤ c.val) (hhi : c.val < 0x800)
    (rest : List UInt8) :
    sequence (UInt8.ofNat (0xc0 + c.val / 0x40))
      (UInt8.ofNat (0x80 + c.val % 0x40) :: rest) = .char c 2 := by
  have hl := toNat_ofNat_of_lt (n := 0xc0 + c.val / 0x40) (by omega)
  have hb := toNat_ofNat_of_lt (n := 0x80 + c.val % 0x40) (by omega)
  have hlead : ¬ 0xc0 + c.val / 0x40 < 0x80 := by omega
  have hrange : 0xc2 ≤ 0xc0 + c.val / 0x40 ∧ 0xc0 + c.val / 0x40 ≤ 0xdf := by omega
  have htail := isTail_ofNat (n := c.val % 0x40) (by omega)
  simp only [sequence, hl, hlead, if_false, Bool.and_eq_true, decide_eq_true_eq, hrange,
    and_self, if_true, twoBytes, htail, hb]
  rw [ofNat_eq_codePoint (c := c) (by omega)]

/-- Three bytes: U+0800 to U+FFFF without the surrogates. -/
theorem sequence_three {c : CodePoint} (hlo : 0x800 ≤ c.val) (hhi : c.val < 0x10000)
    (hsur : ¬ (0xd800 ≤ c.val ∧ c.val ≤ 0xdfff)) (rest : List UInt8) :
    sequence (UInt8.ofNat (0xe0 + c.val / 0x1000))
      (UInt8.ofNat (0x80 + c.val / 0x40 % 0x40) :: UInt8.ofNat (0x80 + c.val % 0x40) :: rest) =
      .char c 3 := by
  have hl := toNat_ofNat_of_lt (n := 0xe0 + c.val / 0x1000) (by omega)
  have hb := toNat_ofNat_of_lt (n := 0x80 + c.val / 0x40 % 0x40) (by omega)
  have hd := toNat_ofNat_of_lt (n := 0x80 + c.val % 0x40) (by omega)
  have hlead : ¬ 0xe0 + c.val / 0x1000 < 0x80 := by omega
  have hnot : ¬ (0xc2 ≤ 0xe0 + c.val / 0x1000 ∧ 0xe0 + c.val / 0x1000 ≤ 0xdf) := by omega
  have hrange : 0xe0 ≤ 0xe0 + c.val / 0x1000 ∧ 0xe0 + c.val / 0x1000 ≤ 0xef := by omega
  have hsecond : isSecond (UInt8.ofNat (0xe0 + c.val / 0x1000))
      (UInt8.ofNat (0x80 + c.val / 0x40 % 0x40)) = true := by
    unfold isSecond isTail
    rw [hl, hb]
    split
    · simp only [Bool.and_eq_true, decide_eq_true_eq]; omega
    split
    · simp only [Bool.and_eq_true, decide_eq_true_eq]; omega
    split
    · omega
    split
    · omega
    · simp only [Bool.and_eq_true, decide_eq_true_eq]; omega
  have htail := isTail_ofNat (n := c.val % 0x40) (by omega)
  simp only [sequence, hl, hlead, if_false, Bool.and_eq_true, decide_eq_true_eq, hnot, hrange,
    and_self, if_true, threeBytes, hsecond, htail, hb, hd]
  rw [ofNat_eq_codePoint (c := c) (by omega)]

/-- Four bytes: the supplementary planes. -/
theorem sequence_four {c : CodePoint} (hlo : 0x10000 ≤ c.val) (rest : List UInt8) :
    sequence (UInt8.ofNat (0xf0 + c.val / 0x40000))
      (UInt8.ofNat (0x80 + c.val / 0x1000 % 0x40) :: UInt8.ofNat (0x80 + c.val / 0x40 % 0x40) ::
        UInt8.ofNat (0x80 + c.val % 0x40) :: rest) = .char c 4 := by
  have hlt : c.val < 0x110000 := c.isLt
  have hl := toNat_ofNat_of_lt (n := 0xf0 + c.val / 0x40000) (by omega)
  have hb := toNat_ofNat_of_lt (n := 0x80 + c.val / 0x1000 % 0x40) (by omega)
  have hd := toNat_ofNat_of_lt (n := 0x80 + c.val / 0x40 % 0x40) (by omega)
  have he := toNat_ofNat_of_lt (n := 0x80 + c.val % 0x40) (by omega)
  have hlead : ¬ 0xf0 + c.val / 0x40000 < 0x80 := by omega
  have hnot : ¬ (0xc2 ≤ 0xf0 + c.val / 0x40000 ∧ 0xf0 + c.val / 0x40000 ≤ 0xdf) := by omega
  have hnot' : ¬ (0xe0 ≤ 0xf0 + c.val / 0x40000 ∧ 0xf0 + c.val / 0x40000 ≤ 0xef) := by omega
  have hrange : 0xf0 ≤ 0xf0 + c.val / 0x40000 ∧ 0xf0 + c.val / 0x40000 ≤ 0xf4 := by omega
  have hsecond : isSecond (UInt8.ofNat (0xf0 + c.val / 0x40000))
      (UInt8.ofNat (0x80 + c.val / 0x1000 % 0x40)) = true := by
    unfold isSecond isTail
    rw [hl, hb]
    split
    · omega
    split
    · omega
    split
    · simp only [Bool.and_eq_true, decide_eq_true_eq]; omega
    split
    · simp only [Bool.and_eq_true, decide_eq_true_eq]; omega
    · simp only [Bool.and_eq_true, decide_eq_true_eq]; omega
  have htail := isTail_ofNat (n := c.val / 0x40 % 0x40) (by omega)
  have htail' := isTail_ofNat (n := c.val % 0x40) (by omega)
  simp only [sequence, hl, hlead, if_false, Bool.and_eq_true, decide_eq_true_eq, hnot, hnot',
    hrange, and_self, if_true, fourBytes, hsecond, htail, htail', hb, hd, he]
  rw [ofNat_eq_codePoint (c := c) (by omega)]

/-- The front of an encoded code point is that code point. -/
theorem sequence_utf8 {c : CodePoint} (hc : c.isSurrogate = false) (rest : List UInt8) :
    ∃ lead tail, c.utf8 = lead :: tail ∧
      sequence lead (tail ++ rest) = .char c (tail.length + 1) := by
  have hsur : ¬ (0xd800 ≤ c.val ∧ c.val ≤ 0xdfff) := by
    simpa [CodePoint.isSurrogate] using hc
  unfold CodePoint.utf8
  split
  · next hone =>
      have hb := toNat_ofNat_of_lt (n := c.val) (by omega)
      refine ⟨_, [], rfl, ?_⟩
      simp only [sequence, hb, hone, if_true]
      rw [ofNat_eq_codePoint rfl]
      rfl
  split
  · next hone htwo => exact ⟨_, _, rfl, sequence_two (by omega) htwo rest⟩
  split
  · next hone htwo hthree =>
      exact ⟨_, _, rfl, sequence_three (by omega) hthree hsur rest⟩
  · next hone htwo hthree => exact ⟨_, _, rfl, sequence_four (by omega) rest⟩

section Decoder

variable {onError : List UInt8 → Option PyStr}

/-- The bytes of a sequence after its first are passed over. -/
theorem decodeWith_skip (tail rest : List UInt8) :
    decodeWith onError tail.length (tail ++ rest) = decodeWith onError 0 rest := by
  induction tail with
  | nil => rfl
  | cons b bs ih =>
      simp only [List.cons_append, List.length_cons, decodeWith, Nat.succ_pos, if_true,
        Nat.add_one_sub_one]
      exact ih

/-- An encoded character is read back first. -/
theorem decodeWith_char {c : CodePoint} (hc : c.isSurrogate = false) (rest : List UInt8) :
    decodeWith onError 0 (c.utf8 ++ rest) = (decodeWith onError 0 rest).map (c :: ·) := by
  obtain ⟨lead, tail, hutf8, hseq⟩ := sequence_utf8 hc rest
  rw [hutf8, List.cons_append, decodeWith, if_neg (by omega), hseq]
  simp only [Nat.add_one_sub_one, decodeWith_skip]

/-- **Round trip**: the decoder inverts the encoder, whatever the handler. -/
theorem decodeWith_utf8 {s : PyStr} (hs : s.Encodable) :
    decodeWith onError 0 (s.flatMap CodePoint.utf8) = some s := by
  induction s with
  | nil => rfl
  | cons c cs ih =>
      have hc : c.isSurrogate = false := hs c List.mem_cons_self
      have hcs : PyStr.Encodable cs := fun d hd => hs d (List.mem_cons_of_mem c hd)
      rw [List.flatMap_cons, decodeWith_char hc, ih hcs]
      rfl

end Decoder

/-- Encoded text is read back. -/
theorem decodeStrict_utf8 {s : PyStr} (hs : s.Encodable) :
    decodeStrict (s.flatMap CodePoint.utf8) = some s := decodeWith_utf8 hs

/-- Also where errors are replaced. -/
theorem decodeReplace_utf8 {s : PyStr} (hs : s.Encodable) :
    decodeReplace (s.flatMap CodePoint.utf8) = s := by
  rw [decodeReplace, decodeWith_utf8 hs, Option.getD_some]

/-- Also where errors are escaped. -/
theorem decodeEscape_utf8 {s : PyStr} (hs : s.Encodable) :
    decodeEscape (s.flatMap CodePoint.utf8) = s := by
  rw [decodeEscape, decodeWith_utf8 hs, Option.getD_some]

/-! ## soundness -/

theorem isTail_bounds {b : UInt8} (h : isTail b = true) : 0x80 ≤ b.toNat ∧ b.toNat ≤ 0xbf := by
  simpa [isTail] using h

/-- What every second byte satisfies, and those after the lead bytes with a
shorter range. -/
theorem isSecond_bounds {lead b : UInt8} (h : isSecond lead b = true) :
    (0x80 ≤ b.toNat ∧ b.toNat ≤ 0xbf) ∧ (lead.toNat = 0xe0 → 0xa0 ≤ b.toNat) ∧
      (lead.toNat = 0xed → b.toNat ≤ 0x9f) ∧ (lead.toNat = 0xf0 → 0x90 ≤ b.toNat) ∧
      (lead.toNat = 0xf4 → b.toNat ≤ 0x8f) := by
  unfold isSecond at h
  split at h
  · simp only [Bool.and_eq_true, decide_eq_true_eq] at h; omega
  split at h
  · simp only [Bool.and_eq_true, decide_eq_true_eq] at h; omega
  split at h
  · simp only [Bool.and_eq_true, decide_eq_true_eq] at h; omega
  split at h
  · simp only [Bool.and_eq_true, decide_eq_true_eq] at h; omega
  · have hb := isTail_bounds h
    omega

theorem ofNat_toNat_eq {b : UInt8} {n : Nat} (h : n = b.toNat) : UInt8.ofNat n = b := by
  rw [h, UInt8.ofNat_toNat]

/-- The bytes of a code point of two bytes. -/
theorem utf8_two {c : CodePoint} {lead b : UInt8} {m : Nat} (hc : Fin.ofNat _ m = c)
    (hm : m = (lead.toNat - 0xc0) * 0x40 + (b.toNat - 0x80))
    (hlead : 0xc2 ≤ lead.toNat ∧ lead.toNat ≤ 0xdf) (hb : 0x80 ≤ b.toNat ∧ b.toNat ≤ 0xbf) :
    c.isSurrogate = false ∧ c.utf8 = [lead, b] := by
  have hval : c.val = m := by
    rw [← hc, Fin.val_ofNat]
    omega
  constructor
  · simp only [CodePoint.isSurrogate, hval, Bool.and_eq_false_iff, decide_eq_false_iff_not]
    omega
  · rw [CodePoint.utf8, if_neg (by omega), if_pos (by omega), ofNat_toNat_eq (b := lead) (by omega),
      ofNat_toNat_eq (b := b) (by omega)]

/-- The bytes of a code point of three bytes. -/
theorem utf8_three {c : CodePoint} {lead b d : UInt8} {m : Nat} (hc : Fin.ofNat _ m = c)
    (hm : m = (lead.toNat - 0xe0) * 0x1000 + (b.toNat - 0x80) * 0x40 + (d.toNat - 0x80))
    (hlead : 0xe0 ≤ lead.toNat ∧ lead.toNat ≤ 0xef) (hb : isSecond lead b = true)
    (hd : isTail d = true) : c.isSurrogate = false ∧ c.utf8 = [lead, b, d] := by
  have hb' := isSecond_bounds hb
  have hd' := isTail_bounds hd
  have hval : c.val = m := by
    rw [← hc, Fin.val_ofNat]
    omega
  constructor
  · simp only [CodePoint.isSurrogate, hval, Bool.and_eq_false_iff, decide_eq_false_iff_not]
    omega
  · rw [CodePoint.utf8, if_neg (by omega), if_neg (by omega), if_pos (by omega),
      ofNat_toNat_eq (b := lead) (by omega), ofNat_toNat_eq (b := b) (by omega),
      ofNat_toNat_eq (b := d) (by omega)]

/-- The bytes of a code point of four bytes. -/
theorem utf8_four {c : CodePoint} {lead b d e : UInt8} {m : Nat} (hc : Fin.ofNat _ m = c)
    (hm : m = (lead.toNat - 0xf0) * 0x40000 + (b.toNat - 0x80) * 0x1000 + (d.toNat - 0x80) * 0x40 +
      (e.toNat - 0x80))
    (hlead : 0xf0 ≤ lead.toNat ∧ lead.toNat ≤ 0xf4) (hb : isSecond lead b = true)
    (hd : isTail d = true) (he : isTail e = true) :
    c.isSurrogate = false ∧ c.utf8 = [lead, b, d, e] := by
  have hb' := isSecond_bounds hb
  have hd' := isTail_bounds hd
  have he' := isTail_bounds he
  have hval : c.val = m := by
    rw [← hc, Fin.val_ofNat]
    omega
  constructor
  · simp only [CodePoint.isSurrogate, hval, Bool.and_eq_false_iff, decide_eq_false_iff_not]
    omega
  · rw [CodePoint.utf8, if_neg (by omega), if_neg (by omega), if_neg (by omega),
      ofNat_toNat_eq (b := lead) (by omega), ofNat_toNat_eq (b := b) (by omega),
      ofNat_toNat_eq (b := d) (by omega), ofNat_toNat_eq (b := e) (by omega)]

theorem utf8_ne_nil (c : CodePoint) : c.utf8 ≠ [] := by
  unfold CodePoint.utf8
  split
  · simp
  split
  · simp
  split
  · simp
  · simp

/-- **Soundness** of one sequence: what is read as a code point is its
encoding. -/
theorem sequence_sound {b : UInt8} {rest : List UInt8} {c : CodePoint} {n : Nat}
    (h : sequence b rest = .char c n) :
    c.isSurrogate = false ∧ n = c.utf8.length ∧ ∃ rest', b :: rest = c.utf8 ++ rest' := by
  have hdone : ∀ (tail rest' : List UInt8), rest = tail ++ rest' →
      c.isSurrogate = false ∧ c.utf8 = b :: tail → n = tail.length + 1 →
      c.isSurrogate = false ∧ n = c.utf8.length ∧ ∃ rest', b :: rest = c.utf8 ++ rest' := by
    intro tail rest' hrest hc hn
    rw [hc.2]
    exact ⟨hc.1, hn, rest', by rw [hrest]; rfl⟩
  unfold sequence at h
  split at h
  · next hascii =>
      injection h with hc hn
      have hval : c.val = b.toNat := by
        rw [← hc, Fin.val_ofNat]
        omega
      refine hdone [] rest rfl ⟨?_, ?_⟩ hn.symm
      · simp only [CodePoint.isSurrogate, hval, Bool.and_eq_false_iff, decide_eq_false_iff_not]
        omega
      · rw [CodePoint.utf8, if_pos (by omega), ofNat_toNat_eq hval]
  split at h
  · next hlead =>
      simp only [Bool.and_eq_true, decide_eq_true_eq] at hlead
      unfold twoBytes at h
      split at h
      · next d rest' =>
          split at h
          · next hd =>
              injection h with hc hn
              exact hdone [d] rest' rfl (utf8_two hc rfl hlead (isTail_bounds hd)) hn.symm
          · contradiction
      · contradiction
  split at h
  · next hlead =>
      simp only [Bool.and_eq_true, decide_eq_true_eq] at hlead
      unfold threeBytes at h
      split at h
      · next d _ =>
          split at h
          · next hd =>
              split at h
              · next e rest' =>
                  split at h
                  · next he =>
                      injection h with hc hn
                      exact hdone [d, e] rest' rfl (utf8_three hc rfl hlead hd he) hn.symm
                  · contradiction
              · contradiction
          · contradiction
      · contradiction
  split at h
  · next hlead =>
      simp only [Bool.and_eq_true, decide_eq_true_eq] at hlead
      unfold fourBytes at h
      split at h
      · next d _ =>
          split at h
          · next hd =>
              split at h
              · next e _ =>
                  split at h
                  · next he =>
                      split at h
                      · next f rest' =>
                          split at h
                          · next hf =>
                              injection h with hc hn
                              exact hdone [d, e, f] rest' rfl (utf8_four hc rfl hlead hd he hf)
                                hn.symm
                          · contradiction
                      · contradiction
                  · contradiction
              · contradiction
          · contradiction
      · contradiction
  · contradiction

/-- **Soundness** of the strict decoder: only the encoding of a text is
decoded to it. -/
theorem decodeStrict_sound {bs : List UInt8} {s : PyStr} (h : decodeStrict bs = some s) :
    s.Encodable ∧ bs = s.flatMap CodePoint.utf8 := by
  unfold decodeStrict at h
  induction hlen : bs.length using Nat.strong_induction_on generalizing bs s with
  | _ len ih =>
      cases bs with
      | nil =>
          obtain rfl : [] = s := by simpa [decodeWith] using h
          exact ⟨fun c hc => absurd hc List.not_mem_nil, rfl⟩
      | cons b bs =>
          rw [decodeWith, if_neg (by omega)] at h
          cases hseq : sequence b bs with
          | malformed n => rw [hseq] at h; contradiction
          | char c n =>
              obtain ⟨hc, hn, rest, hrest⟩ := sequence_sound hseq
              rw [hseq, Option.map_eq_some_iff] at h
              obtain ⟨t, ht, rfl⟩ := h
              cases hutf8 : c.utf8 with
              | nil =>
                  -- no code point has an empty encoding
                  exact absurd hutf8 (utf8_ne_nil c)
              | cons b' tail =>
                  rw [hutf8, List.cons_append] at hrest
                  obtain ⟨rfl, rfl⟩ := List.cons.inj hrest
                  rw [hn, hutf8, List.length_cons, Nat.add_sub_cancel, decodeWith_skip] at ht
                  obtain ⟨henc, hbs⟩ := ih rest.length (by simp at hlen; omega) ht rfl
                  constructor
                  · intro d hd
                    cases List.mem_cons.mp hd with
                    | inl heq => rw [heq]; exact hc
                    | inr hmem => exact henc d hmem
                  · rw [List.flatMap_cons, hutf8, ← hbs]
                    rfl

/-! ## ASCII -/

/-- A longer sequence does not make an ASCII character. -/
theorem sequence_not_ascii {b : UInt8} {rest : List UInt8} {c : CodePoint} {n : Nat}
    (hb : 0x80 ≤ b.toNat) (h : sequence b rest = .char c n) : 0x80 ≤ c.val := by
  obtain ⟨-, -, rest', hrest⟩ := sequence_sound h
  by_contra hc
  rw [CodePoint.utf8, if_pos (by omega)] at hrest
  have hlead : b = UInt8.ofNat c.val := (List.cons.inj hrest).1
  rw [hlead, toNat_ofNat_of_lt (by omega)] at hb
  omega

/-- A malformed part has at least one byte. -/
theorem sequence_ne_malformed_zero (b : UInt8) (rest : List UInt8) :
    sequence b rest ≠ .malformed 0 := by
  unfold sequence twoBytes threeBytes fourBytes
  intro h
  repeat' split at h
  all_goals cases h

/-- An ASCII byte is decoded to itself, whatever follows. -/
theorem decodeWith_ascii {onError : List UInt8 → Option PyStr} {b : UInt8} (hb : b.toNat < 0x80)
    (bs : List UInt8) :
    decodeWith onError 0 (b :: bs) =
      (decodeWith onError 0 bs).map ((Fin.ofNat _ b.toNat : CodePoint) :: ·) := by
  have hseq : sequence b bs = .char (Fin.ofNat _ b.toNat) 1 := by rw [sequence, if_pos hb]
  rw [decodeWith, if_neg (by omega), hseq]

/-- A handler that makes no ASCII character, and always something. -/
def NonAscii (onError : List UInt8 → Option PyStr) : Prop :=
  ∀ bad t, bad ≠ [] → onError bad = some t → ∃ c ts, t = c :: ts ∧ 0x80 ≤ c.val

/-- A text that starts with an ASCII character comes from that byte. -/
theorem decodeWith_cons_ascii {onError : List UInt8 → Option PyStr} (herr : NonAscii onError)
    {bs : List UInt8} {c : CodePoint} {s : PyStr} (hc : c.val < 0x80)
    (h : decodeWith onError 0 bs = some (c :: s)) :
    ∃ bs', bs = UInt8.ofNat c.val :: bs' ∧ decodeWith onError 0 bs' = some s := by
  cases bs with
  | nil => simp [decodeWith] at h
  | cons b bs =>
      by_cases hb : b.toNat < 0x80
      · rw [decodeWith_ascii hb, Option.map_eq_some_iff] at h
        obtain ⟨t, ht, heq⟩ := h
        obtain ⟨hbc, rfl⟩ := List.cons.inj heq
        have hval : c.val = b.toNat := by
          rw [← hbc, Fin.val_ofNat]
          omega
        exact ⟨bs, by rw [hval, UInt8.ofNat_toNat], ht⟩
      · rw [decodeWith, if_neg (by omega)] at h
        cases hseq : sequence b bs with
        | char d n =>
            have hd := sequence_not_ascii (by omega) hseq
            rw [hseq, Option.map_eq_some_iff] at h
            obtain ⟨t, -, heq⟩ := h
            rw [(List.cons.inj heq).1] at hd
            omega
        | malformed n =>
            have hn : ((b :: bs).take n) ≠ [] := by
              cases n with
              | zero => exact absurd hseq (sequence_ne_malformed_zero b bs)
              | succ n => simp
            rw [hseq] at h
            cases ht : onError ((b :: bs).take n) with
            | none => simp only [ht] at h; contradiction
            | some t =>
                obtain ⟨d, ds, rfl, hd⟩ := herr _ t hn ht
                simp only [ht, Option.map_eq_some_iff] at h
                obtain ⟨t', -, heq⟩ := h
                rw [List.cons_append] at heq
                rw [(List.cons.inj heq).1] at hd
                omega

/-- The bytes of an ASCII text. -/
def asciiBytes (s : PyStr) : List UInt8 := s.map fun c => UInt8.ofNat c.val

/-- `data.decode("ascii")`; `none` is a `UnicodeDecodeError`. -/
def decodeAscii (data : List UInt8) : Option PyStr :=
  if data.all fun b => b.toNat < 0x80 then some (data.map fun b => Fin.ofNat _ b.toNat) else none

theorem decodeAscii_asciiBytes {s : PyStr} (hs : ∀ c ∈ s, c.val < 0x80) :
    decodeAscii (asciiBytes s) = some s := by
  have hbyte : ∀ c ∈ s, (UInt8.ofNat c.val).toNat = c.val := by
    intro c hc
    have hlt := hs c hc
    exact toNat_ofNat_of_lt (by omega)
  have hall : (asciiBytes s).all (fun b => b.toNat < 0x80) = true := by
    rw [asciiBytes, List.all_map, List.all_eq_true]
    intro c hc
    rw [Function.comp_apply, hbyte c hc]
    exact decide_eq_true (hs c hc)
  have hmap : (asciiBytes s).map (fun b => Fin.ofNat 0x110000 b.toNat) = s := by
    rw [asciiBytes, List.map_map]
    refine (List.map_congr_left fun c hc => ?_).trans (List.map_id s)
    rw [Function.comp_apply, hbyte c hc]
    exact Fin.ofNat_val_eq_self c
  rw [decodeAscii, if_pos hall, hmap]

theorem flatMap_utf8_ascii {s : PyStr} (hs : ∀ c ∈ s, c.val < 0x80) :
    s.flatMap CodePoint.utf8 = asciiBytes s := by
  induction s with
  | nil => rfl
  | cons c cs ih =>
      have hc : c.val < 0x80 := hs c List.mem_cons_self
      have hcs := ih fun d hd => hs d (List.mem_cons_of_mem c hd)
      rw [List.flatMap_cons, hcs, CodePoint.utf8, if_pos hc]
      rfl

theorem encodable_of_ascii {s : PyStr} (hs : ∀ c ∈ s, c.val < 0x80) : s.Encodable := by
  intro c hc
  have hlt := hs c hc
  simp only [CodePoint.isSurrogate, Bool.and_eq_false_iff, decide_eq_false_iff_not]
  omega

/-- Only the bytes of an ASCII text are decoded to it. -/
theorem decodeWith_eq_ascii_iff {onError : List UInt8 → Option PyStr} (herr : NonAscii onError)
    {bs : List UInt8} {s : PyStr} (hs : ∀ c ∈ s, c.val < 0x80) :
    decodeWith onError 0 bs = some s ↔ bs = asciiBytes s := by
  constructor
  · intro h
    induction s generalizing bs with
    | nil =>
        cases bs with
        | nil => rfl
        | cons b bs =>
            -- every sequence, well-formed or not, leaves something
            rw [decodeWith, if_neg (by omega)] at h
            cases hseq : sequence b bs with
            | char d n =>
                rw [hseq, Option.map_eq_some_iff] at h
                obtain ⟨t, -, heq⟩ := h
                exact absurd heq (List.cons_ne_nil d t)
            | malformed n =>
                have hn : ((b :: bs).take n) ≠ [] := by
                  cases n with
                  | zero => exact absurd hseq (sequence_ne_malformed_zero b bs)
                  | succ n => simp
                rw [hseq] at h
                cases ht : onError ((b :: bs).take n) with
                | none => simp [ht] at h
                | some t =>
                    obtain ⟨d, ds, rfl, -⟩ := herr _ t hn ht
                    simp only [ht, Option.map_eq_some_iff] at h
                    obtain ⟨t', -, heq⟩ := h
                    exact absurd heq (List.cons_ne_nil d _)
    | cons c cs ih =>
        have hc : c.val < 0x80 := hs c List.mem_cons_self
        obtain ⟨bs', rfl, hbs'⟩ := decodeWith_cons_ascii herr hc h
        have hcs := ih (fun d hd => hs d (List.mem_cons_of_mem c hd)) hbs'
        rw [hcs]
        rfl
  · intro h
    rw [h, ← flatMap_utf8_ascii hs]
    exact decodeWith_utf8 (encodable_of_ascii hs)

/-- Where every error has a replacement all bytes decode. -/
theorem decodeWith_total {onError : List UInt8 → Option PyStr}
    (h : ∀ bad, ∃ t, onError bad = some t) (skip : Nat) (bs : List UInt8) :
    ∃ s, decodeWith onError skip bs = some s := by
  induction bs generalizing skip with
  | nil => exact ⟨[], rfl⟩
  | cons b bs ih =>
      rw [decodeWith]
      by_cases hskip : 0 < skip
      · rw [if_pos hskip]
        exact ih (skip - 1)
      · rw [if_neg hskip]
        cases sequence b bs with
        | char c n =>
            obtain ⟨s, hs⟩ := ih (n - 1)
            exact ⟨c :: s, by simp only [hs, Option.map_some]⟩
        | malformed n =>
            obtain ⟨t, ht⟩ := h ((b :: bs).take n)
            obtain ⟨s, hs⟩ := ih (n - 1)
            exact ⟨t ++ s, by simp only [ht, hs, Option.map_some]⟩

/-- ASCII text comes from its own bytes only. -/
theorem decodeEscape_eq_iff {bs : List UInt8} {s : PyStr} (hs : ∀ c ∈ s, c.val < 0x80) :
    decodeEscape bs = s ↔ bs = asciiBytes s := by
  have herr : NonAscii fun bad => some (bad.map escapeByte) := by
    intro bad t hne ht
    cases bad with
    | nil => contradiction
    | cons b bs =>
        rw [Option.some.injEq] at ht
        refine ⟨escapeByte b, bs.map escapeByte, ht.symm, ?_⟩
        have hb : b.toNat < 256 := b.toNat_lt
        rw [escapeByte, Fin.val_ofNat]
        omega
  obtain ⟨t, ht⟩ : ∃ t, decodeWith (fun bad => some (bad.map escapeByte)) 0 bs = some t :=
    decodeWith_total (fun bad => ⟨_, rfl⟩) 0 bs
  rw [← decodeWith_eq_ascii_iff herr hs, decodeEscape, ht, Option.getD_some, Option.some.injEq]

end Utf8

/-- What `encode` answers when it does. -/
theorem PyStr.encodeUtf8_eq {s : PyStr} (hs : s.Encodable) :
    s.encodeUtf8 = .ok (s.flatMap CodePoint.utf8) := by
  induction s with
  | nil => rfl
  | cons c cs ih =>
      have hc : c.isSurrogate = false := hs c List.mem_cons_self
      have hcs : PyStr.Encodable cs := fun d hd => hs d (List.mem_cons_of_mem c hd)
      simp only [PyStr.encodeUtf8, hc, Bool.false_eq_true, if_false, ih hcs, List.flatMap_cons]

namespace PyStr

/-- `len(s.encode("utf-8"))`. -/
def utf8Length (s : PyStr) : Nat := (s.flatMap CodePoint.utf8).length

@[simp] theorem utf8Length_nil : utf8Length [] = 0 := rfl

@[simp] theorem utf8Length_append (s t : PyStr) :
    utf8Length (s ++ t) = utf8Length s + utf8Length t := by
  simp [utf8Length]

@[simp] theorem utf8Length_cons (c : CodePoint) (s : PyStr) :
    utf8Length (c :: s) = c.utf8.length + utf8Length s := by
  simp [utf8Length]

/-- The length is that of the bytes. -/
theorem utf8Length_of_encodeUtf8 {s : PyStr} {bytes : List UInt8}
    (h : s.encodeUtf8 = .ok bytes) : s.utf8Length = bytes.length := by
  have henc := encodeUtf8_eq (encodable_of_encodeUtf8 h)
  rw [h, Except.ok.injEq] at henc
  rw [utf8Length, henc]

/-- ASCII characters take one byte each. -/
theorem utf8Length_of_ascii {s : PyStr} (h : ∀ c ∈ s, c.val < 0x80) :
    s.utf8Length = s.length := by
  induction s with
  | nil => rfl
  | cons c cs ih =>
      have hc : c.val < 0x80 := h c List.mem_cons_self
      have hcs : utf8Length cs = cs.length := ih fun d hd => h d (List.mem_cons_of_mem c hd)
      have hone : c.utf8.length = 1 := by simp [CodePoint.utf8, hc]
      rw [utf8Length_cons, hone, hcs, List.length_cons]
      omega

end PyStr

end SushidaOs
