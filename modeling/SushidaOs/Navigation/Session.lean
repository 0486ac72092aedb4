import SushidaOs.Bytes
import SushidaOs.Utf8

/-!
# SushidaOs.Navigation.Session

Chromium's session files as `sushida-navigation-watch` reads them.

A file is the header and one record after another.  The reader does not step
from record to record: it tries every offset (`scan`), and takes whatever has
the shape of a record there (`candidateAt`).  A candidate is the same thing as
the bytes of a well-formed record (`candidateAt_record`,
`record_of_candidateAt`), so the reader finds the records and everything
inside them that is itself a record.
-/

namespace SushidaOs

open Bytes PyStr

namespace Session

/-- `MAX_SESSION_BYTES`. -/
def maxSessionBytes : Nat := 4 * 1024 * 1024

/-- `MAX_RECORD_BYTES`. -/
def maxRecordBytes : Nat := 65536

/-- `MAX_URL_BYTES`. -/
def maxUrlBytes : Nat := 2048

/-- `MAX_NAVIGATION_INDEX`. -/
def maxNavigationIndex : Nat := 4096

/-- `MAGIC`. -/
def magic : List UInt8 := [0x53, 0x4e, 0x53, 0x53]

/-- A triple that `iter_navigation_records` yields. -/
structure Entry where
  tabId : List UInt8
  index : Nat
  url : PyStr
  deriving DecidableEq, Repr

/-! ## the reader -/

/-- `ord(char) >= 0x21 and ord(char) != 0x7F`. -/
def isPrintable (c : CodePoint) : Bool := 0x21 ≤ c.val && c.val != 0x7f

/-- The body of the loop for a payload of `size` bytes. -/
def payloadEntry (payload : List UInt8) (size : Nat) : Option Entry :=
  let navIndex := u32At payload 4
  let urlLen := u32At payload 8
  if navIndex ≤ maxNavigationIndex ∧ 1 ≤ urlLen ∧ urlLen ≤ maxUrlBytes ∧ 12 + urlLen ≤ size then
    match Utf8.decodeStrict (slice payload 12 (12 + urlLen)) with
    | none => none
    | some url => if url.all isPrintable then some ⟨slice payload 0 4, navIndex, url⟩ else none
  else none

/-- The body of the loop at an offset. -/
def candidateAt (data : List UInt8) (offset : Nat) : Option Entry :=
  if byteAt data offset = 0x06 then
    let size := u32At data (offset + 1)
    if 13 ≤ size ∧ size ≤ maxRecordBytes ∧ offset + 5 + size ≤ data.length then
      payloadEntry (slice data (offset + 5) (offset + 5 + size)) size
    else none
  else none

/-- The loop, with `left` offsets to try. -/
def scan (data : List UInt8) (offset : Nat) : Nat → List Entry
  | 0 => []
  | left + 1 => (candidateAt data offset).toList ++ scan data (offset + 1) left

/-- `iter_navigation_records`: the offsets from 8 on that have 13 bytes left. -/
def iterNavigationRecords (data : List UInt8) : List Entry :=
  if data.length < 8 ∨ maxSessionBytes < data.length then []
  else if slice data 0 4 ≠ magic then []
  else if i32At data 4 < 1 ∨ 99 < i32At data 4 then []
  else scan data 8 (data.length - 20)

/-- The update of the dictionary `entries`, kept in insertion order. -/
def setEntry (tabId : List UInt8) (url : PyStr) :
    List (List UInt8 × PyStr) → List (List UInt8 × PyStr)
  | [] => [(tabId, url)]
  | (t, u) :: rest => if t = tabId then (t, url) :: rest else (t, u) :: setEntry tabId url rest

/-- `current_entries`. -/
def currentEntries (data : List UInt8) : List (List UInt8 × PyStr) :=
  (iterNavigationRecords data).foldl (fun entries e => setEntry e.tabId e.url entries) []

/-! ## the writer -/

/-- A navigation record. -/
structure Record where
  tabId : List UInt8
  index : Nat
  url : PyStr
  trailer : List UInt8
  tabId_length : tabId.length = 4
  index_le : index ≤ maxNavigationIndex
  url_encodable : url.Encodable
  url_nonempty : 1 ≤ url.utf8Length
  url_le : url.utf8Length ≤ maxUrlBytes
  url_printable : ∀ c ∈ url, isPrintable c = true
  size_le : 12 + url.utf8Length + trailer.length ≤ maxRecordBytes

namespace Record

/-- The bytes of the URL. -/
def urlBytes (r : Record) : List UInt8 := r.url.flatMap CodePoint.utf8

def payload (r : Record) : List UInt8 :=
  r.tabId ++ (le32 r.index ++ (le32 r.url.utf8Length ++ (r.urlBytes ++ r.trailer)))

/-- The size of the payload. -/
def size (r : Record) : Nat := 12 + r.url.utf8Length + r.trailer.length

/-- The record in the file. -/
def bytes (r : Record) : List UInt8 := 0x06 :: (le32 r.size ++ r.payload)

/-- What the reader should yield for the record. -/
def entry (r : Record) : Entry := ⟨r.tabId, r.index, r.url⟩

theorem length_urlBytes (r : Record) : r.urlBytes.length = r.url.utf8Length := rfl

theorem length_payload (r : Record) : r.payload.length = r.size := by
  simp only [payload, size, List.length_append, length_le32, r.tabId_length, length_urlBytes]
  omega

/-- A record: its command, four bytes for the size, and the payload. -/
theorem length_bytes (r : Record) : r.bytes.length = 5 + r.size := by
  rw [bytes, List.length_cons, List.length_append, length_le32, length_payload]
  omega

end Record

/-- A session file. -/
structure SessionFile where
  version : Nat
  records : List Record
  version_pos : 1 ≤ version
  version_le : version ≤ 99
  size_le : 8 + (records.flatMap Record.bytes).length ≤ maxSessionBytes

/-- The bytes of the file. -/
def SessionFile.bytes (f : SessionFile) : List UInt8 :=
  magic ++ (le32 f.version ++ f.records.flatMap Record.bytes)

/-- The bytes of a record begin inside another record. -/
def EmbeddedRecord (records : List Record) : Prop :=
  ∃ (before : List Record) (r : Record) (after : List Record) (i : Nat) (r' : Record),
    records = before ++ r :: after ∧ 0 < i ∧ i < r.bytes.length ∧
    r'.bytes <+: r.bytes.drop i ++ after.flatMap Record.bytes

/-! ## candidates and records -/

/-- The loop body looks only at the rest of the file. -/
theorem candidateAt_drop {data : List UInt8} {offset : Nat} (h : offset ≤ data.length) :
    candidateAt (data.drop offset) 0 = candidateAt data offset := by
  have hlen : ∀ size : Nat, (0 + 5 + size ≤ (data.drop offset).length) ↔
      offset + 5 + size ≤ data.length := by
    intro size
    rw [List.length_drop]
    omega
  simp only [candidateAt, byteAt_drop, u32At_drop, slice_drop, Nat.add_zero, hlen]
  simp only [Nat.zero_add, ← Nat.add_assoc]

theorem size_lt (r : Record) : r.size < 0x100000000 := by
  have hsize := r.size_le
  simp only [Record.size, maxRecordBytes] at hsize ⊢
  omega

/-- **Completeness**: a record is a candidate. -/
theorem candidateAt_record (r : Record) (rest : List UInt8) :
    candidateAt (r.bytes ++ rest) 0 = some r.entry := by
  have hindex := r.index_le
  have hurl := r.url_le
  have hpos := r.url_nonempty
  have hsize := r.size_le
  simp only [maxNavigationIndex, maxUrlBytes, maxRecordBytes] at hindex hurl hsize
  have hdata : r.bytes ++ rest = [0x06] ++ (le32 r.size ++ (r.payload ++ rest)) := by
    simp only [Record.bytes, List.cons_append, List.nil_append, List.append_assoc]
  have hlength : (r.bytes ++ rest).length = 5 + r.size + rest.length := by
    rw [List.length_append, Record.length_bytes]
  have hsizeAt : u32At (r.bytes ++ rest) 1 = r.size := by
    rw [hdata]
    exact u32At_le32 (size_lt r) [0x06] _ rfl
  have hpayload : slice (r.bytes ++ rest) 5 (5 + r.size) = r.payload := by
    have hfront : r.bytes ++ rest = (0x06 :: le32 r.size) ++ (r.payload ++ rest) := by
      simp only [Record.bytes, List.cons_append, List.append_assoc]
    rw [hfront]
    exact slice_append _ _ _ rfl (by rw [Record.length_payload]; rfl)
  have hindexAt : u32At r.payload 4 = r.index :=
    u32At_le32 (by omega) r.tabId _ r.tabId_length.symm
  have hurlLenAt : u32At r.payload 8 = r.url.utf8Length := by
    have hfront : r.payload = (r.tabId ++ le32 r.index) ++
        (le32 r.url.utf8Length ++ (r.urlBytes ++ r.trailer)) := by
      simp only [Record.payload, List.append_assoc]
    rw [hfront]
    exact u32At_le32 (by omega) _ _ (by rw [List.length_append, r.tabId_length, length_le32])
  have hurlAt : slice r.payload 12 (12 + r.url.utf8Length) = r.urlBytes := by
    have hfront : r.payload = (r.tabId ++ (le32 r.index ++ le32 r.url.utf8Length)) ++
        (r.urlBytes ++ r.trailer) := by
      simp only [Record.payload, List.append_assoc]
    have hlen : (r.tabId ++ (le32 r.index ++ le32 r.url.utf8Length)).length = 12 := by
      simp only [List.length_append, r.tabId_length, length_le32]
    rw [hfront]
    exact slice_append _ _ _ hlen.symm (by rw [hlen, Record.length_urlBytes])
  have htabAt : slice r.payload 0 4 = r.tabId :=
    slice_append [] r.tabId _ rfl (by rw [r.tabId_length]; rfl)
  have hbyte : byteAt (r.bytes ++ rest) 0 = 0x06 := rfl
  have hall : r.url.all isPrintable = true := List.all_eq_true.mpr r.url_printable
  have hdecode : Utf8.decodeStrict r.urlBytes = some r.url :=
    Utf8.decodeStrict_utf8 r.url_encodable
  have hfits : 13 ≤ r.size ∧ r.size ≤ maxRecordBytes ∧
      0 + 5 + r.size ≤ (r.bytes ++ rest).length := by
    rw [hlength]
    simp only [Record.size, maxRecordBytes]
    omega
  have hchecks : r.index ≤ maxNavigationIndex ∧ 1 ≤ r.url.utf8Length ∧
      r.url.utf8Length ≤ maxUrlBytes ∧ 12 + r.url.utf8Length ≤ r.size := by
    simp only [Record.size, maxNavigationIndex, maxUrlBytes]
    omega
  simp only [candidateAt, hbyte, if_true, Nat.zero_add, hsizeAt] at hfits ⊢
  rw [if_pos hfits, payloadEntry]
  simp only [hpayload, hindexAt, hurlLenAt, if_pos hchecks, hurlAt, hdecode, hall, if_true, htabAt]
  rfl

/-- A payload that passes the checks is the payload of a record. -/
theorem record_of_payloadEntry {payload : List UInt8} {e : Entry}
    (hle : payload.length ≤ maxRecordBytes) (h : payloadEntry payload payload.length = some e) :
    ∃ r : Record, r.entry = e ∧ r.payload = payload := by
  simp only [payloadEntry] at h
  split at h
  · next hchecks =>
      obtain ⟨hindex, hpos, hmax, hfits⟩ := hchecks
      cases hdecode : Utf8.decodeStrict (slice payload 12 (12 + u32At payload 8)) with
      | none => simp only [hdecode] at h; contradiction
      | some url =>
          simp only [hdecode] at h
          split at h
          · next hall =>
              obtain ⟨hencodable, hbytes⟩ := Utf8.decodeStrict_sound hdecode
              have hurl : url.utf8Length = u32At payload 8 := by
                rw [PyStr.utf8Length, ← hbytes, length_slice hfits, Nat.add_sub_cancel_left]
              have htrailer : (slice payload (12 + u32At payload 8) payload.length).length =
                  payload.length - (12 + u32At payload 8) := length_slice (Nat.le_refl _)
              let r : Record :=
                { tabId := slice payload 0 4
                  index := u32At payload 4
                  url := url
                  trailer := slice payload (12 + u32At payload 8) payload.length
                  tabId_length := length_slice (by omega)
                  index_le := hindex
                  url_encodable := hencodable
                  url_nonempty := by omega
                  url_le := by omega
                  url_printable := List.all_eq_true.mp hall
                  size_le := by omega }
              have hpayload : r.payload = payload := by
                show slice payload 0 4 ++ (le32 (u32At payload 4) ++ (le32 url.utf8Length ++
                  (url.flatMap CodePoint.utf8 ++
                    slice payload (12 + u32At payload 8) payload.length))) = payload
                rw [hurl, le32_u32At (by omega), le32_u32At (by omega), ← hbytes,
                  slice_append_slice payload (by omega) hfits,
                  slice_append_slice payload (by omega) (by omega),
                  slice_append_slice payload (by omega) (by omega),
                  slice_append_slice payload (by omega) (by omega), slice_zero, List.take_length]
              exact ⟨r, Option.some.inj h, hpayload⟩
          · contradiction
  · contradiction

/-- **Soundness**: a candidate is the bytes of a record. -/
theorem record_of_candidateAt {data : List UInt8} {e : Entry} (h : candidateAt data 0 = some e) :
    ∃ r : Record, r.entry = e ∧ r.bytes <+: data := by
  simp only [candidateAt, Nat.zero_add] at h
  split at h
  · next hbyte =>
      split at h
      · next hfits =>
          obtain ⟨-, hmax, hend⟩ := hfits
          have hlen : (slice data 5 (5 + u32At data 1)).length = u32At data 1 := by
            rw [length_slice hend, Nat.add_sub_cancel_left]
          have hentry : payloadEntry (slice data 5 (5 + u32At data 1))
              (slice data 5 (5 + u32At data 1)).length = some e := by rwa [hlen]
          obtain ⟨r, hr, hpayload⟩ := record_of_payloadEntry (by omega) hentry
          have hsize : r.size = u32At data 1 := by rw [← r.length_payload, hpayload, hlen]
          have hfirst : slice data 0 1 = [0x06] := slice_head (by omega) hbyte
          have hbytes : r.bytes = data.take (5 + u32At data 1) := by
            show [0x06] ++ (le32 r.size ++ r.payload) = _
            rw [hsize, hpayload, le32_u32At (by omega), ← hfirst,
              slice_append_slice data (by omega) (by omega),
              slice_append_slice data (by omega) (by omega), slice_zero]
          exact ⟨r, hr, hbytes ▸ List.take_prefix _ _⟩
      · contradiction
  · contradiction

/-! ## the scan -/

/-- The candidates that begin in `data` when `after` follows it. -/
def hitsIn (after : List UInt8) : List UInt8 → List Entry
  | [] => []
  | b :: rest => (candidateAt (b :: rest ++ after) 0).toList ++ hitsIn after rest

/-- The places of two parts of the file. -/
theorem hitsIn_append (after front back : List UInt8) :
    hitsIn after (front ++ back) = hitsIn (back ++ after) front ++ hitsIn after back := by
  induction front with
  | nil => rfl
  | cons b front ih =>
      simp only [List.cons_append, hitsIn, ih, List.append_assoc]

theorem hitsIn_eq_nil_iff {after data : List UInt8} :
    hitsIn after data = [] ↔ ∀ i < data.length, candidateAt (data.drop i ++ after) 0 = none := by
  induction data with
  | nil => simp [hitsIn]
  | cons b rest ih =>
      rw [hitsIn, List.append_eq_nil_iff, ih, Option.toList_eq_nil_iff]
      constructor
      · rintro ⟨hhead, hrest⟩ i hi
        cases i with
        | zero => exact hhead
        | succ i => exact hrest i (by simpa using hi)
      · intro h
        exact ⟨h 0 (by simp), fun i hi => h (i + 1) (by simpa using hi)⟩

/-- A candidate has 18 bytes. -/
theorem candidateAt_short {data : List UInt8} (h : data.length < 18) :
    candidateAt data 0 = none := by
  simp only [candidateAt]
  split
  · rw [if_neg (by omega)]
  · rfl

/-- A record takes 18 bytes at least. -/
theorem hitsIn_short {data : List UInt8} (h : data.length < 18) : hitsIn [] data = [] := by
  apply hitsIn_eq_nil_iff.mpr
  intro i _
  apply candidateAt_short
  rw [List.append_nil, List.length_drop]
  omega

/-- The offsets that the loop leaves out have no candidate. -/
theorem scan_eq_hitsIn {data : List UInt8} {offset left : Nat} (hin : offset + left ≤ data.length)
    (hend : data.length < offset + left + 18) :
    scan data offset left = hitsIn [] (data.drop offset) := by
  induction left generalizing offset with
  | zero =>
      rw [scan, hitsIn_short]
      rw [List.length_drop]
      omega
  | succ left ih =>
      have hlt : offset < data.length := by omega
      have hcandidate := candidateAt_drop (Nat.le_of_lt hlt)
      rw [List.drop_eq_getElem_cons hlt] at hcandidate ⊢
      rw [scan, hitsIn, List.append_nil, hcandidate, ih (by omega) (by omega)]

/-- The header passes, and the loop covers the rest of the file. -/
theorem iterNavigationRecords_file (f : SessionFile) :
    iterNavigationRecords f.bytes = hitsIn [] (f.records.flatMap Record.bytes) := by
  have hpos := f.version_pos
  have hle := f.version_le
  have hsize := f.size_le
  have hlength : f.bytes.length = 8 + (f.records.flatMap Record.bytes).length := by
    simp only [SessionFile.bytes, magic, List.length_append, length_le32, List.length_cons,
      List.length_nil]
    omega
  have hmagic : slice f.bytes 0 4 = magic := slice_append [] magic _ rfl rfl
  have hversionAt : u32At f.bytes 4 = f.version := u32At_le32 (by omega) magic _ rfl
  have hversion : i32At f.bytes 4 = f.version := by
    rw [i32At, hversionAt, if_pos (by omega)]
  have hdrop : f.bytes.drop 8 = f.records.flatMap Record.bytes := rfl
  rw [iterNavigationRecords, if_neg (by omega), if_neg (fun h => h hmagic),
    if_neg (by rw [hversion]; omega), scan_eq_hitsIn (by omega) (by omega), hdrop]

/-! ## records inside records -/

/-- The first byte of a record is the record; the others may begin more. -/
theorem hitsIn_record (r : Record) (after : List UInt8) :
    hitsIn after r.bytes = r.entry :: hitsIn after r.bytes.tail := by
  have hrecord := candidateAt_record r after
  rw [Record.bytes] at hrecord ⊢
  rw [hitsIn, hrecord]
  rfl

/-- The records are found, and what their bytes hold inside. -/
theorem hitsIn_records (r : Record) (rs : List Record) :
    hitsIn [] ((r :: rs).flatMap Record.bytes) =
      r.entry :: (hitsIn (rs.flatMap Record.bytes) r.bytes.tail ++
        hitsIn [] (rs.flatMap Record.bytes)) := by
  rw [List.flatMap_cons, hitsIn_append, List.append_nil, hitsIn_record, List.cons_append]

/-- Every record is found. -/
theorem length_le_hitsIn (rs : List Record) :
    rs.length ≤ (hitsIn [] (rs.flatMap Record.bytes)).length := by
  induction rs with
  | nil => exact Nat.zero_le _
  | cons r rs ih =>
      rw [hitsIn_records, List.length_cons, List.length_cons, List.length_append]
      omega

/-- A record inside the first one or inside the others. -/
theorem embeddedRecord_cons (r : Record) (rs : List Record) :
    EmbeddedRecord (r :: rs) ↔
      hitsIn (rs.flatMap Record.bytes) r.bytes.tail ≠ [] ∨ EmbeddedRecord rs := by
  have htail : r.bytes.tail.length + 1 = r.bytes.length := rfl
  constructor
  · rintro ⟨before, s, after, i, r', hsplit, hpos, hlt, hprefix⟩
    cases before with
    | nil =>
        left
        cases hsplit
        intro hnil
        obtain ⟨rest, hrest⟩ := hprefix
        have hnone := hitsIn_eq_nil_iff.mp hnil (i - 1) (by omega)
        rw [List.drop_tail, Nat.sub_add_cancel hpos, ← hrest, candidateAt_record] at hnone
        contradiction
    | cons _ before =>
        right
        cases hsplit
        exact ⟨before, s, after, i, r', rfl, hpos, hlt, hprefix⟩
  · intro h
    cases h with
    | inl hhits =>
        have hexists : ∃ i, ∃ _ : i < r.bytes.tail.length,
            candidateAt (r.bytes.tail.drop i ++ rs.flatMap Record.bytes) 0 ≠ none := by
          by_contra hnone
          apply hhits
          apply hitsIn_eq_nil_iff.mpr
          intro i hi
          by_contra hsome
          exact hnone ⟨i, hi, hsome⟩
        obtain ⟨i, hi, hsome⟩ := hexists
        obtain ⟨e, he⟩ := Option.ne_none_iff_exists'.mp hsome
        obtain ⟨r', -, hprefix⟩ := record_of_candidateAt he
        rw [List.drop_tail] at hprefix
        exact ⟨[], r, rs, i + 1, r', rfl, Nat.succ_pos i, by omega, hprefix⟩
    | inr hrest =>
        obtain ⟨before, s, after, i, r', hsplit, hbounds⟩ := hrest
        exact ⟨r :: before, s, after, i, r', by rw [hsplit, List.cons_append], hbounds⟩

/-- The reader yields the records and no more exactly when none is embedded. -/
theorem hitsIn_eq_entries_iff (rs : List Record) :
    hitsIn [] (rs.flatMap Record.bytes) = rs.map Record.entry ↔ ¬ EmbeddedRecord rs := by
  induction rs with
  | nil =>
      have hnone : ¬ EmbeddedRecord [] := by
        rintro ⟨before, r, after, i, r', hsplit, -⟩
        simp at hsplit
      exact iff_of_true rfl hnone
  | cons r rs ih =>
      rw [embeddedRecord_cons, not_or, not_not, ← ih, hitsIn_records, List.map_cons,
        List.cons.injEq]
      constructor
      · rintro ⟨-, h⟩
        -- every record of the rest is found, so nothing is left for the first
        have hlen := congrArg List.length h
        have hle := length_le_hitsIn rs
        rw [List.length_append, List.length_map] at hlen
        have hnil : hitsIn (rs.flatMap Record.bytes) r.bytes.tail = [] :=
          List.eq_nil_of_length_eq_zero (by omega)
        rw [hnil, List.nil_append] at h
        exact ⟨hnil, h⟩
      · rintro ⟨hnil, h⟩
        rw [hnil, List.nil_append]
        exact ⟨rfl, h⟩

/-! ## the dictionary -/

theorem lookup_setEntry (tab tabId : List UInt8) (url : PyStr)
    (entries : List (List UInt8 × PyStr)) :
    (setEntry tabId url entries).lookup tab =
      if tabId = tab then some url else entries.lookup tab := by
  induction entries with
  | nil => grind [setEntry]
  | cons entry rest ih => grind [setEntry]

/-- The URL of the last record of the tab. -/
def lastUrl (tab : List UInt8) (records : List Record) : Option PyStr :=
  (records.reverse.find? fun r => r.tabId == tab).map Record.url

/-- The dictionary built from the records themselves. -/
theorem lookup_foldl_entries (tab : List UInt8) (records : List Record) :
    ((records.map Record.entry).foldl (fun entries e => setEntry e.tabId e.url entries) []).lookup
      tab = lastUrl tab records := by
  induction records using List.reverseRecOn with
  | nil => rfl
  | append_singleton records r ih =>
      rw [List.map_append, List.foldl_append, List.map_singleton, List.foldl_cons, List.foldl_nil,
        lookup_setEntry, ih, lastUrl, lastUrl, List.reverse_append, List.reverse_singleton,
        List.singleton_append, List.find?_cons]
      by_cases htab : r.tabId = tab
      · simp [Record.entry, htab]
      · rw [Record.entry, if_neg htab, beq_false_of_ne htab]

/-- **What was written is read back exactly when no record is embedded**: the
triples, in order and nothing else, and for each tab the URL of its last
record. -/
theorem records_recovered_iff (f : SessionFile) :
    (iterNavigationRecords f.bytes = f.records.map Record.entry ∧
      ∀ tab : List UInt8, (currentEntries f.bytes).lookup tab = lastUrl tab f.records) ↔
    ¬ EmbeddedRecord f.records := by
  rw [← hitsIn_eq_entries_iff, ← iterNavigationRecords_file]
  constructor
  · exact fun h => h.1
  · intro h
    refine ⟨h, fun tab => ?_⟩
    rw [currentEntries, h, lookup_foldl_entries]

/-- A record of an ASCII URL. -/
def asciiRecord (tabId : List UInt8) (url : String) (trailer : List UInt8)
    (htab : tabId.length = 4)
    (hurl : (lit url).all (fun c => decide (c.val < 0x80) && isPrintable c) = true)
    (hlen : 1 ≤ (lit url).utf8Length ∧ (lit url).utf8Length ≤ maxUrlBytes)
    (hsize : 12 + (lit url).utf8Length + trailer.length ≤ maxRecordBytes) : Record where
  tabId := tabId
  index := 0
  url := lit url
  trailer := trailer
  tabId_length := htab
  index_le := Nat.zero_le _
  url_encodable := Utf8.encodable_of_ascii fun c hc => by
    have h := List.all_eq_true.mp hurl c hc
    rw [Bool.and_eq_true, decide_eq_true_eq] at h
    exact h.1
  url_nonempty := hlen.1
  url_le := hlen.2
  url_printable := fun c hc => by
    have h := List.all_eq_true.mp hurl c hc
    rw [Bool.and_eq_true] at h
    exact h.2
  size_le := hsize

/-- A record of another site. -/
def strayRecord : Record :=
  asciiRecord [9, 9, 9, 9] "http://evil.example/" [] rfl (by decide) (by decide) (by decide)

/-- A file of one record, whose trailer is the bytes of `strayRecord`. -/
def phantomFile : SessionFile where
  version := 3
  records := [asciiRecord [1, 2, 3, 4] "https://sushida.net/" strayRecord.bytes rfl (by decide)
    (by decide) (by decide)]
  version_pos := by decide
  version_le := by decide
  size_le := by decide

/-- The record in the trailer is read as a second one. -/
theorem phantom_record_read :
    ¬ (iterNavigationRecords phantomFile.bytes = phantomFile.records.map Record.entry ∧
      ∀ tab : List UInt8,
        (currentEntries phantomFile.bytes).lookup tab = lastUrl tab phantomFile.records) := by
  have hread : iterNavigationRecords phantomFile.bytes ≠ phantomFile.records.map Record.entry := by
    decide
  exact fun h => hread h.1

end Session

end SushidaOs
