import SushidaOs.Navigation.Session

/-!
# SushidaOs.Navigation.Torn

A session file cut off while Chromium is writing it.

The reader never looks outside the bytes it was given (`iterChecked`), and what
it finds in the front of a file are the records of the whole file that end
there.
-/

namespace SushidaOs

open Bytes PyStr

namespace Session

/-! ## reads inside the buffer -/

/-- An `IndexError`, a `struct.error`, or a slice that is cut short. -/
inductive OutOfBounds where
  | outOfBounds
  deriving DecidableEq, Repr

/-- `data[i]`. -/
def byteChecked (data : List UInt8) (i : Nat) : Except OutOfBounds Nat :=
  if i < data.length then .ok (byteAt data i) else .error .outOfBounds

/-- `struct.unpack_from("<I", data, i)`. -/
def u32Checked (data : List UInt8) (i : Nat) : Except OutOfBounds Nat :=
  if i + 4 ≤ data.length then .ok (u32At data i) else .error .outOfBounds

/-- `struct.unpack_from("<i", data, i)`. -/
def i32Checked (data : List UInt8) (i : Nat) : Except OutOfBounds Int :=
  if i + 4 ≤ data.length then .ok (i32At data i) else .error .outOfBounds

/-- `data[i:j]`. -/
def sliceChecked (data : List UInt8) (i j : Nat) : Except OutOfBounds (List UInt8) :=
  if i ≤ j ∧ j ≤ data.length then .ok (slice data i j) else .error .outOfBounds

/-- The end of the loop's body: the bytes of the URL are decoded and looked at. -/
def urlEntry (tabId : List UInt8) (navIndex : Nat) (raw : List UInt8) : Option Entry :=
  match Utf8.decodeStrict raw with
  | none => none
  | some url => if url.all isPrintable then some ⟨tabId, navIndex, url⟩ else none

/-- The body of the loop for a payload, with its reads checked. -/
def payloadChecked (payload : List UInt8) (size : Nat) : Except OutOfBounds (Option Entry) :=
  match u32Checked payload 4, u32Checked payload 8 with
  | .ok navIndex, .ok urlLen =>
      if navIndex ≤ maxNavigationIndex ∧ 1 ≤ urlLen ∧ urlLen ≤ maxUrlBytes ∧
          12 + urlLen ≤ size then
        match sliceChecked payload 12 (12 + urlLen), sliceChecked payload 0 4 with
        | .ok raw, .ok tabId => .ok (urlEntry tabId navIndex raw)
        | _, _ => .error .outOfBounds
      else .ok none
  | _, _ => .error .outOfBounds

/-- The body of the loop at an offset, with its reads checked. -/
def candidateChecked (data : List UInt8) (offset : Nat) : Except OutOfBounds (Option Entry) :=
  match byteChecked data offset with
  | .error e => .error e
  | .ok command =>
      if command = 0x06 then
        match u32Checked data (offset + 1) with
        | .error e => .error e
        | .ok size =>
            if 13 ≤ size ∧ size ≤ maxRecordBytes ∧ offset + 5 + size ≤ data.length then
              match sliceChecked data (offset + 5) (offset + 5 + size) with
              | .error e => .error e
              | .ok payload => payloadChecked payload size
            else .ok none
      else .ok none

/-- The loop with its reads checked. -/
def scanChecked (data : List UInt8) (offset : Nat) : Nat → Except OutOfBounds (List Entry)
  | 0 => .ok []
  | left + 1 =>
      match candidateChecked data offset, scanChecked data (offset + 1) left with
      | .ok found, .ok rest => .ok (found.toList ++ rest)
      | _, _ => .error .outOfBounds

/-- `iter_navigation_records` with its reads checked. -/
def iterChecked (data : List UInt8) : Except OutOfBounds (List Entry) :=
  if data.length < 8 ∨ maxSessionBytes < data.length then .ok []
  else match sliceChecked data 0 4, i32Checked data 4 with
    | .ok signature, .ok version =>
        if signature ≠ magic then .ok []
        else if version < 1 ∨ 99 < version then .ok []
        else scanChecked data 8 (data.length - 20)
    | _, _ => .error .outOfBounds

/-- The three bounds of a payload, and what it says. -/
theorem payloadEntry_eq (payload : List UInt8) (size : Nat) :
    payloadEntry payload size =
      if u32At payload 4 ≤ maxNavigationIndex ∧ 1 ≤ u32At payload 8 ∧
          u32At payload 8 ≤ maxUrlBytes ∧ 12 + u32At payload 8 ≤ size then
        urlEntry (slice payload 0 4) (u32At payload 4) (slice payload 12 (12 + u32At payload 8))
      else none := by
  rewrite [payloadEntry, urlEntry]
  generalize Utf8.decodeStrict (slice payload 12 (12 + u32At payload 8)) = url
  cases url with
  | none => rfl
  | some url => rfl

/-- No read of a payload that is long enough leaves it. -/
theorem payloadChecked_eq {payload : List UInt8} {size : Nat} (hlen : payload.length = size)
    (hsize : 13 ≤ size) : payloadChecked payload size = .ok (payloadEntry payload size) := by
  have hindex : u32Checked payload 4 = .ok (u32At payload 4) := if_pos (by omega)
  have hurl : u32Checked payload 8 = .ok (u32At payload 8) := if_pos (by omega)
  have htab : sliceChecked payload 0 4 = .ok (slice payload 0 4) := if_pos (by omega)
  rw [payloadEntry_eq]
  simp only [payloadChecked, hindex, hurl, htab]
  by_cases hbounds : u32At payload 4 ≤ maxNavigationIndex ∧ 1 ≤ u32At payload 8 ∧
      u32At payload 8 ≤ maxUrlBytes ∧ 12 + u32At payload 8 ≤ size
  · have hraw : sliceChecked payload 12 (12 + u32At payload 8) =
        .ok (slice payload 12 (12 + u32At payload 8)) := if_pos (by omega)
    rw [if_pos hbounds, if_pos hbounds, hraw]
  · rw [if_neg hbounds, if_neg hbounds]

/-- No read of a candidate leaves the file. -/
theorem candidateChecked_eq {data : List UInt8} {offset : Nat} (h : offset + 13 ≤ data.length) :
    candidateChecked data offset = .ok (candidateAt data offset) := by
  have hcommand : byteChecked data offset = .ok (byteAt data offset) := if_pos (by omega)
  have hsize : u32Checked data (offset + 1) = .ok (u32At data (offset + 1)) := if_pos (by omega)
  simp only [candidateChecked, candidateAt, hcommand, hsize]
  by_cases hhere : byteAt data offset = 0x06
  · rw [if_pos hhere, if_pos hhere]
    by_cases hbounds : 13 ≤ u32At data (offset + 1) ∧ u32At data (offset + 1) ≤ maxRecordBytes ∧
        offset + 5 + u32At data (offset + 1) ≤ data.length
    · have hpayload : sliceChecked data (offset + 5) (offset + 5 + u32At data (offset + 1)) =
          .ok (slice data (offset + 5) (offset + 5 + u32At data (offset + 1))) :=
        if_pos (by omega)
      rw [if_pos hbounds, if_pos hbounds, hpayload]
      refine payloadChecked_eq ?_ hbounds.1
      rw [length_slice hbounds.2.2, Nat.add_sub_cancel_left]
    · rw [if_neg hbounds, if_neg hbounds]
  · rw [if_neg hhere, if_neg hhere]

/-- No read of the scan leaves the file. -/
theorem scanChecked_eq {data : List UInt8} {offset left : Nat}
    (h : left = 0 ∨ offset + left + 12 ≤ data.length) :
    scanChecked data offset left = .ok (scan data offset left) := by
  induction left generalizing offset with
  | zero => rfl
  | succ left ih =>
      have hhere : candidateChecked data offset = .ok (candidateAt data offset) :=
        candidateChecked_eq (by omega)
      have hrest : scanChecked data (offset + 1) left = .ok (scan data (offset + 1) left) :=
        ih (by omega)
      simp only [scanChecked, scan, hhere, hrest]

/-- **In bounds**: no read of the reader leaves the buffer. -/
theorem iterChecked_eq (data : List UInt8) :
    iterChecked data = .ok (iterNavigationRecords data) := by
  rw [iterChecked, iterNavigationRecords]
  split
  · rfl
  · next hlen =>
      have hmagic : sliceChecked data 0 4 = .ok (slice data 0 4) := if_pos (by omega)
      have hversion : i32Checked data 4 = .ok (i32At data 4) := if_pos (by omega)
      have hscan : scanChecked data 8 (data.length - 20) = .ok (scan data 8 (data.length - 20)) :=
        scanChecked_eq (by omega)
      simp only [hmagic, hversion, hscan]
      split
      · rfl
      · split
        · rfl
        · rfl

/-! ## the front of a file -/

/-- A record that was read: where it begins, and the size of its payload. -/
structure Found where
  offset : Nat
  size : Nat
  entry : Entry
  deriving DecidableEq, Repr

/-- Where the record ends. -/
def Found.stop (f : Found) : Nat := f.offset + 5 + f.size

/-- The record at an offset. -/
def foundAt (data : List UInt8) (offset : Nat) : Option Found :=
  (candidateAt data offset).map fun e => ⟨offset, u32At data (offset + 1), e⟩

/-- The records from an offset on. -/
def foundFrom (data : List UInt8) (offset : Nat) : Nat → List Found
  | 0 => []
  | left + 1 => (foundAt data offset).toList ++ foundFrom data (offset + 1) left

/-- The records that `iter_navigation_records` yields, with their places. -/
def foundRecords (data : List UInt8) : List Found :=
  if data.length < 8 ∨ maxSessionBytes < data.length then []
  else if slice data 0 4 ≠ magic then []
  else if i32At data 4 < 1 ∨ 99 < i32At data 4 then []
  else foundFrom data 8 (data.length - 20)

theorem map_foundFrom (data : List UInt8) (offset left : Nat) :
    (foundFrom data offset left).map Found.entry = scan data offset left := by
  induction left generalizing offset with
  | zero => rfl
  | succ left ih =>
      rw [foundFrom, scan, List.map_append, ih, foundAt]
      cases candidateAt data offset <;> rfl

/-- The records with their places are the records. -/
theorem map_foundRecords (data : List UInt8) :
    (foundRecords data).map Found.entry = iterNavigationRecords data := by
  rw [foundRecords, iterNavigationRecords]
  split
  · rfl
  split
  · rfl
  split
  · rfl
  · exact map_foundFrom data 8 _

/-- What is known of a record that was found. -/
theorem of_foundAt {data : List UInt8} {offset : Nat} {f : Found}
    (h : foundAt data offset = some f) :
    f.offset = offset ∧ 13 ≤ f.size ∧ f.stop ≤ data.length := by
  obtain ⟨e, he, rfl⟩ := Option.map_eq_some_iff.mp h
  rw [candidateAt] at he
  split at he
  · simp only at he
    split at he
    · next hbounds => exact ⟨rfl, hbounds.1, hbounds.2.2⟩
    · contradiction
  · contradiction

/-- A record lies inside the file. -/
theorem of_mem_foundFrom {data : List UInt8} {offset left : Nat} {f : Found}
    (h : f ∈ foundFrom data offset left) :
    offset ≤ f.offset ∧ 13 ≤ f.size ∧ f.stop ≤ data.length := by
  induction left generalizing offset with
  | zero => simp [foundFrom] at h
  | succ left ih =>
      rw [foundFrom, List.mem_append] at h
      cases h with
      | inl hhere =>
          have hat := of_foundAt (Option.mem_toList.mp hhere)
          exact ⟨hat.1.ge, hat.2⟩
      | inr hlater =>
          have hrest := ih hlater
          exact ⟨by omega, hrest.2⟩

/-- At one offset, the cut decides whether the record is found. -/
theorem foundAt_take {data : List UInt8} {offset k : Nat} (h : offset + 13 ≤ k)
    (hk : k ≤ data.length) :
    (foundAt (data.take k) offset).toList =
      (foundAt data offset).toList.filter fun f => f.stop ≤ k := by
  have hlength : (data.take k).length = k := by
    rw [List.length_take]
    omega
  rw [foundAt, foundAt, candidateAt, candidateAt, byteAt_take data (by omega),
    u32At_take data (by omega), hlength]
  by_cases hcommand : byteAt data offset = 0x06
  · simp only [if_pos hcommand]
    by_cases hstop : offset + 5 + u32At data (offset + 1) ≤ k
    · have hslice : slice (data.take k) (offset + 5) (offset + 5 + u32At data (offset + 1)) =
          slice data (offset + 5) (offset + 5 + u32At data (offset + 1)) := slice_take data hstop
      have hstop' : offset + 5 + u32At data (offset + 1) ≤ data.length := by omega
      simp only [hstop, hstop', hslice]
      split
      · cases payloadEntry _ _ with
        | none => rfl
        | some e =>
            simp [Found.stop, hstop]
      · rfl
    · rw [if_neg (by omega)]
      split
      · cases payloadEntry _ _ with
        | none => rfl
        | some e =>
            simp [Found.stop, hstop]
      · rfl
  · simp only [if_neg hcommand]
    rfl

/-- A scan of two parts of the file. -/
theorem foundFrom_add (data : List UInt8) (offset m n : Nat) :
    foundFrom data offset (m + n) = foundFrom data offset m ++ foundFrom data (offset + m) n := by
  induction m generalizing offset with
  | zero => simp [foundFrom]
  | succ m ih =>
      have hnext : offset + 1 + m = offset + (m + 1) := by omega
      rw [Nat.succ_add_eq_add_succ, Nat.add_succ, foundFrom, foundFrom, ih, hnext,
        List.append_assoc]

/-- A cut behind the scan does not matter. -/
theorem foundFrom_take {data : List UInt8} {offset left k : Nat}
    (h : left = 0 ∨ offset + left + 12 ≤ k) (hk : k ≤ data.length) :
    foundFrom (data.take k) offset left =
      (foundFrom data offset left).filter fun f => f.stop ≤ k := by
  induction left generalizing offset with
  | zero => rfl
  | succ left ih =>
      rw [foundFrom, foundFrom, List.filter_append, foundAt_take (by omega) hk, ih (by omega)]

/-- The records behind the last offset of the front end behind the front. -/
theorem foundFrom_behind {data : List UInt8} {offset left k : Nat} (h : k < offset + 18) :
    ((foundFrom data offset left).filter fun f => f.stop ≤ k) = [] := by
  rw [List.filter_eq_nil_iff]
  intro f hf
  obtain ⟨hfrom, hsize, -⟩ := of_mem_foundFrom hf
  have hstop : ¬ f.stop ≤ k := by
    rw [Found.stop]
    omega
  exact fun h => hstop (of_decide_eq_true h)

theorem i32At_take (data : List UInt8) {i k : Nat} (h : i + 4 ≤ k) :
    i32At (data.take k) i = i32At data i := by
  rw [i32At, i32At, u32At_take data h]

/-- A cut inside the file. -/
theorem foundRecords_take {data : List UInt8} {k : Nat} (hsize : data.length ≤ maxSessionBytes)
    (hk : k ≤ data.length) :
    foundRecords (data.take k) = (foundRecords data).filter fun f => f.stop ≤ k := by
  have hlength : (data.take k).length = k := by
    rw [List.length_take]
    omega
  by_cases hshort : k < 8
  · have hleft : foundRecords (data.take k) = [] := by
      rw [foundRecords, if_pos (by omega)]
    rw [hleft, foundRecords]
    split
    · rfl
    split
    · rfl
    split
    · rfl
    · exact (foundFrom_behind (by omega)).symm
  · have hfront : ¬ (k < 8 ∨ maxSessionBytes < k) := by omega
    have hwhole : ¬ (data.length < 8 ∨ maxSessionBytes < data.length) := by omega
    rw [foundRecords, foundRecords, hlength, if_neg hfront, if_neg hwhole,
      slice_take data (by omega), i32At_take data (by omega)]
    split
    · rfl
    split
    · rfl
    · have hcut : data.length - 20 = (k - 20) + (data.length - 20 - (k - 20)) := by omega
      have hbehind : ((foundFrom data (8 + (k - 20)) (data.length - 20 - (k - 20))).filter
          fun f => f.stop ≤ k) = [] := foundFrom_behind (by omega)
      rw [hcut, foundFrom_add, List.filter_append, foundFrom_take (by omega) hk, hbehind,
        List.append_nil]

/-- **Torn files**: the reader stays inside what it was given, and finds in the
front of a file the records of the file that end there, in order. -/
theorem torn_file_records (data : List UInt8) (k : Nat)
    (hsize : data.length ≤ maxSessionBytes) :
    iterChecked data = .ok ((foundRecords data).map Found.entry) ∧
      iterChecked (data.take k) =
        .ok (((foundRecords data).filter fun f => f.stop ≤ k).map Found.entry) := by
  rw [iterChecked_eq, iterChecked_eq, ← map_foundRecords, ← map_foundRecords]
  refine ⟨rfl, ?_⟩
  by_cases hk : k ≤ data.length
  · rw [foundRecords_take hsize hk]
  · have hall : ((foundRecords data).filter fun f => f.stop ≤ k) = foundRecords data := by
      rw [List.filter_eq_self]
      intro f hf
      rw [foundRecords] at hf
      split at hf
      · contradiction
      split at hf
      · contradiction
      split at hf
      · contradiction
      · have hfound := of_mem_foundFrom hf
        exact decide_eq_true (by omega)
    rw [hall, List.take_of_length_le (by omega)]

/-- A file with the record of one tab. -/
def oneRecord : List UInt8 :=
  magic ++ le32 1 ++ 0x06 :: (le32 13 ++ [1, 0, 0, 0] ++ le32 0 ++ le32 1 ++ [0x78])

/-- Without its last byte the file has no record. -/
theorem torn_record_lost :
    iterChecked oneRecord = .ok [⟨[1, 0, 0, 0], 0, .lit "x"⟩] ∧
      iterChecked (oneRecord.take 25) = .ok [] := by
  have hwhole : (foundRecords oneRecord).map Found.entry = [⟨[1, 0, 0, 0], 0, .lit "x"⟩] := by
    decide
  have hfront : ((foundRecords oneRecord).filter fun f => f.stop ≤ 25).map Found.entry = [] := by
    decide
  have htorn := torn_file_records oneRecord 25 (by decide)
  rwa [hwhole, hfront] at htorn

end Session

end SushidaOs
