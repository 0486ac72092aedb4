import Mathlib.Data.List.Basic

/-!
# SushidaOs.Bytes

Byte buffers: slices, and 32-bit integers in little-endian order as
`struct.unpack_from` reads them.

A read outside the buffer gives zeros; `struct` raises there, so a use of it
goes with a bound.
-/

namespace SushidaOs

namespace Bytes

/-- `data[i]`. -/
def byteAt (data : List UInt8) (i : Nat) : Nat := (data.getD i 0).toNat

/-- `data[i:j]`. -/
def slice (data : List UInt8) (i j : Nat) : List UInt8 := (data.drop i).take (j - i)

/-- `struct.unpack_from("<I", data, i)`. -/
def u32At (data : List UInt8) (i : Nat) : Nat :=
  byteAt data i + byteAt data (i + 1) * 0x100 + byteAt data (i + 2) * 0x10000 +
    byteAt data (i + 3) * 0x1000000

/-- `struct.unpack_from("<i", data, i)`. -/
def i32At (data : List UInt8) (i : Nat) : Int :=
  if u32At data i < 0x80000000 then u32At data i else (u32At data i : Int) - 0x100000000

/-- `struct.pack("<I", n)`. -/
def le32 (n : Nat) : List UInt8 :=
  [UInt8.ofNat n, UInt8.ofNat (n / 0x100), UInt8.ofNat (n / 0x10000), UInt8.ofNat (n / 0x1000000)]

@[simp] theorem length_le32 (n : Nat) : (le32 n).length = 4 := rfl

/-! ## positions -/

theorem byteAt_drop (data : List UInt8) (i j : Nat) :
    byteAt (data.drop i) j = byteAt data (i + j) := by
  rw [byteAt, byteAt, List.getD_eq_getElem?_getD, List.getD_eq_getElem?_getD, List.getElem?_drop]

/-- A number further on in the rest of the file. -/
theorem u32At_drop (data : List UInt8) (i j : Nat) :
    u32At (data.drop i) j = u32At data (i + j) := by
  simp only [u32At, byteAt_drop, Nat.add_assoc]

/-- A slice of the rest of the file. -/
theorem slice_drop (data : List UInt8) (i j k : Nat) :
    slice (data.drop i) j k = slice data (i + j) (i + k) := by
  rw [slice, slice, List.drop_drop, Nat.add_sub_add_left]

/-! A read inside the front of a buffer. -/

theorem byteAt_take (data : List UInt8) {i k : Nat} (h : i < k) :
    byteAt (data.take k) i = byteAt data i := by
  rw [byteAt, byteAt, List.getD_eq_getElem?_getD, List.getD_eq_getElem?_getD,
    List.getElem?_take_of_lt h]

/-- A number is the same in a file cut behind it. -/
theorem u32At_take (data : List UInt8) {i k : Nat} (h : i + 4 ≤ k) :
    u32At (data.take k) i = u32At data i := by
  rw [u32At, u32At, byteAt_take data (by omega), byteAt_take data (by omega),
    byteAt_take data (by omega), byteAt_take data (by omega)]

/-- So is a slice. -/
theorem slice_take (data : List UInt8) {i j k : Nat} (h : j ≤ k) :
    slice (data.take k) i j = slice data i j := by
  rw [slice, slice, List.drop_take, List.take_take, Nat.min_eq_left (by omega)]

/-- A slice with something in front and behind. -/
theorem slice_append (front middle back : List UInt8) {i j : Nat} (hi : i = front.length)
    (hj : j = front.length + middle.length) : slice (front ++ (middle ++ back)) i j = middle := by
  rw [slice, hi, List.drop_left, hj, Nat.add_sub_cancel_left, List.take_left]

theorem length_slice {data : List UInt8} {i j : Nat} (hj : j ≤ data.length) :
    (slice data i j).length = j - i := by
  rw [slice, List.length_take, List.length_drop]
  omega

/-- Two slices that meet are one. -/
theorem slice_append_slice (data : List UInt8) {i j k : Nat} (hij : i ≤ j) (hjk : j ≤ k) :
    slice data i j ++ slice data j k = slice data i k := by
  have hdrop : data.drop j = (data.drop i).drop (j - i) := by
    rw [List.drop_drop, Nat.add_sub_cancel' hij]
  have htake : k - i = (j - i) + (k - j) := by omega
  rw [slice, slice, slice, hdrop, htake, List.take_add]

theorem slice_zero (data : List UInt8) (j : Nat) : slice data 0 j = data.take j := by
  rw [slice, List.drop_zero, Nat.sub_zero]

theorem slice_head {data : List UInt8} {b : UInt8} (hlen : 1 ≤ data.length)
    (h : byteAt data 0 = b.toNat) : slice data 0 1 = [b] := by
  cases data with
  | nil => simp at hlen
  | cons a rest =>
      have ha : a = b := UInt8.toNat_inj.mp h
      rw [ha, slice_zero, List.take_succ_cons, List.take_zero]

/-! ## round trips -/

theorem u32At_zero (a b c d : UInt8) (rest : List UInt8) :
    u32At (a :: b :: c :: d :: rest) 0 =
      a.toNat + b.toNat * 0x100 + c.toNat * 0x10000 + d.toNat * 0x1000000 := rfl

/-- What was packed is unpacked. -/
theorem u32At_le32 {n : Nat} (hn : n < 0x100000000) (front rest : List UInt8) {i : Nat}
    (hi : i = front.length) : u32At (front ++ (le32 n ++ rest)) i = n := by
  have hhead : u32At (le32 n ++ rest) 0 = n := by
    simp only [le32, List.cons_append, List.nil_append, u32At_zero, UInt8.toNat_ofNat']
    omega
  have hdrop := u32At_drop (front ++ (le32 n ++ rest)) front.length 0
  rw [List.drop_left, Nat.add_zero, hhead] at hdrop
  rw [hi, ← hdrop]

/-- What was unpacked packs to the same bytes. -/
theorem le32_u32At {data : List UInt8} {i : Nat} (h : i + 4 ≤ data.length) :
    le32 (u32At data i) = slice data i (i + 4) := by
  have hlen : 4 ≤ (data.drop i).length := by
    rw [List.length_drop]
    omega
  have hzero := u32At_drop data i 0
  rw [Nat.add_zero] at hzero
  rw [slice, Nat.add_sub_cancel_left, ← hzero]
  match hrest : data.drop i with
  | [] => rw [hrest] at hlen; simp at hlen
  | [_] => rw [hrest] at hlen; simp at hlen
  | [_, _] => rw [hrest] at hlen; simp at hlen
  | [_, _, _] => rw [hrest] at hlen; simp at hlen
  | a :: b :: c :: d :: rest =>
      have ha := a.toNat_lt
      have hb := b.toNat_lt
      have hc := c.toNat_lt
      have hd := d.toNat_lt
      have hbyte : ∀ (x : UInt8) (n : Nat), n % 256 = x.toNat → UInt8.ofNat n = x := by
        intro x n hn
        apply UInt8.toNat_inj.mp
        rw [UInt8.toNat_ofNat', ← hn]
      rw [u32At_zero, le32, hbyte a _ (by omega), hbyte b _ (by omega), hbyte c _ (by omega),
        hbyte d _ (by omega)]
      rfl

end Bytes

end SushidaOs
