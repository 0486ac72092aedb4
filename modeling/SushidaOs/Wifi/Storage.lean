import SushidaOs.Wifi.World

/-!
# SushidaOs.Wifi.Storage

The credential file `setup.json` (`sushida_os/wifi/storage.py`): the readiness
probe and the atomic write.
-/

namespace SushidaOs

/-! ## the readiness probe -/

/-- `persistent_storage_ready` as a function of what it reads.  The tests are
made in the source's order, and an `OSError` in any of them answers `False`;
a status file that is not UTF-8 raises. -/
def StorageView.ready (uid : Nat) (v : StorageView) : Except PyExc Bool :=
  match v.mounted, v.status, v.directory with
  | some mounted, some status, some directory =>
      if !status.isRegular then .ok false
      else match v.statusIsSymlink with
        | none | some true => .ok false
        | some false =>
            if status.uid ≠ 0 || status.mode ≠ 0o644 then .ok false
            else match v.statusText with
              | .osError => .ok false
              | .undecodable => .error .unicodeDecodeError
              | .text s => .ok (s.strip = .lit "ready" && mounted && directory.isDirectory &&
                  directory.uid = uid && directory.mode = 0o700)
  | _, _, _ => .ok false

/-- The status file passes every test up to the reading of its text, and this is not
UTF-8. -/
def StorageView.Undecodable (v : StorageView) : Prop :=
  v.mounted.isSome = true ∧ v.directory.isSome = true ∧ v.statusIsSymlink = some false ∧
    v.statusText = .undecodable ∧
    ∃ status, v.status = some status ∧ status.isRegular = true ∧ status.uid = 0 ∧
      status.mode = 0o644

/-- The probe raises for such a status file only. -/
theorem StorageView.ready_eq_error_iff {uid : Nat} {v : StorageView} {e : PyExc} :
    v.ready uid = .error e ↔ v.Undecodable ∧ e = .unicodeDecodeError := by
  obtain ⟨mounted, status, directory, symlink, text⟩ := v
  rcases mounted with - | mounted
  · simp [ready, Undecodable]
  rcases status with - | status
  · simp [ready, Undecodable]
  rcases directory with - | directory
  · simp [ready, Undecodable]
  rcases symlink with - | symlink
  · simp [ready, Undecodable]
  cases symlink with
  | true => simp [ready, Undecodable]
  | false =>
      by_cases hregular : status.isRegular = true
      · by_cases howned : status.uid = 0 ∧ status.mode = 0o644
        · cases text with
          | osError | text s => simp [ready, Undecodable, hregular, howned]
          | undecodable =>
              simp only [ready, Undecodable, hregular, howned]
              simpa [hregular, howned] using eq_comm
        · have hnot : (decide (status.uid ≠ 0) || decide (status.mode ≠ 0o644)) = true := by
            simp only [Bool.or_eq_true, decide_eq_true_eq]
            omega
          simp only [ready, Undecodable, hregular, hnot]
          simpa using fun _ _ huid hmode => absurd ⟨huid, hmode⟩ howned
      · simp [ready, Undecodable, hregular]

/-- `persistent_storage_ready`. -/
def persistentStorageReady (E : Env) : Script Entry (Except PyExc Bool) := do
  let view ← Script.ask E.storage .storageRead
  pure (view.ready E.uid)

/-! ## the payload -/

/-- A lower-case hexadecimal digit. -/
def hexDigit (n : Nat) : CodePoint := Fin.ofNat _ (if n < 10 then 0x30 + n else 0x57 + n)

/-- The escapes of `json.dumps` with `ensure_ascii=False`. -/
def jsonEscape (c : CodePoint) : PyStr :=
  if c = 0x22 || c = 0x5c then [0x5c, c]
  else if c = 0x08 then .lit "\\b"
  else if c = 0x09 then .lit "\\t"
  else if c = 0x0a then .lit "\\n"
  else if c = 0x0c then .lit "\\f"
  else if c = 0x0d then .lit "\\r"
  else if c.val < 0x20 then .lit "\\u00" ++ [hexDigit (c.val / 16), hexDigit (c.val % 16)]
  else [c]

def jsonString (s : PyStr) : PyStr := [0x22] ++ s.flatMap jsonEscape ++ [0x22]

/-- The object `persist_credentials` dumps, keys in insertion order. -/
def configText (ssid password : PyStr) : PyStr :=
  .lit "\x7b\"version\":1,\"ssid\":" ++ jsonString ssid ++ .lit ",\"password\":" ++
    jsonString password ++ .lit "\x7d"

/-! The payload of strings that can be encoded can be encoded. -/

theorem hexDigit_not_surrogate {n : Nat} (h : n < 16) : (hexDigit n).isSurrogate = false := by
  have hval : (hexDigit n).val < 0xd800 := by
    simp only [hexDigit, Fin.val_ofNat]
    split <;> omega
  simp only [CodePoint.isSurrogate, Bool.and_eq_false_iff, decide_eq_false_iff_not]
  omega

theorem encodable_jsonEscape {c : CodePoint} (hc : c.isSurrogate = false) :
    (jsonEscape c).Encodable := by
  unfold jsonEscape
  split
  · intro d hd
    simp only [List.mem_cons, List.not_mem_nil, or_false] at hd
    cases hd with
    | inl h => rw [h]; decide
    | inr h => rw [h]; exact hc
  split
  · exact PyStr.encodable_lit _
  split
  · exact PyStr.encodable_lit _
  split
  · exact PyStr.encodable_lit _
  split
  · exact PyStr.encodable_lit _
  split
  · exact PyStr.encodable_lit _
  split
  · next hlt =>
      refine (PyStr.encodable_lit _).append ?_
      intro d hd
      simp only [List.mem_cons, List.not_mem_nil, or_false] at hd
      cases hd with
      | inl h => rw [h]; exact hexDigit_not_surrogate (by omega)
      | inr h => rw [h]; exact hexDigit_not_surrogate (by omega)
  · intro d hd
    rw [List.mem_singleton.mp hd]
    exact hc

/-- A quoted text can be encoded. -/
theorem encodable_jsonString {s : PyStr} (h : s.Encodable) : (jsonString s).Encodable := by
  have hquote : PyStr.Encodable [0x22] := PyStr.encodable_lit "\""
  have hbody : PyStr.Encodable (s.flatMap jsonEscape) := by
    intro d hd
    obtain ⟨c, hc, hd⟩ := List.mem_flatMap.mp hd
    exact encodable_jsonEscape (h c hc) d hd
  exact (hquote.append hbody).append hquote

/-- So can the document. -/
theorem encodable_configText {ssid password : PyStr} (hs : ssid.Encodable)
    (hp : password.Encodable) : (configText ssid password).Encodable := by
  have hbody := ((PyStr.encodable_lit "\x7b\"version\":1,\"ssid\":").append
    (encodable_jsonString hs)).append (PyStr.encodable_lit ",\"password\":")
  exact (hbody.append (encodable_jsonString hp)).append (PyStr.encodable_lit "\x7d")

/-- `MAX_CONFIG_BYTES`. -/
def maxConfigBytes : Nat := 8192

/-! A character grows at most to an escape of six bytes. -/

theorem jsonEscape_utf8Length (c : CodePoint) :
    (jsonEscape c).utf8Length ≤ 6 * c.utf8.length := by
  have hpos : 1 ≤ c.utf8.length := by
    unfold CodePoint.utf8
    split
    · simp
    split
    · simp
    split
    · simp
    · simp
  unfold jsonEscape
  split
  · next h =>
      have hback : (CodePoint.utf8 0x5c).length = 1 := by decide
      rw [PyStr.utf8Length_cons, PyStr.utf8Length_cons, PyStr.utf8Length_nil, hback]
      omega
  split
  · have hlen : (PyStr.lit "\\b").utf8Length = 2 := by decide
    omega
  split
  · have hlen : (PyStr.lit "\\t").utf8Length = 2 := by decide
    omega
  split
  · have hlen : (PyStr.lit "\\n").utf8Length = 2 := by decide
    omega
  split
  · have hlen : (PyStr.lit "\\f").utf8Length = 2 := by decide
    omega
  split
  · have hlen : (PyStr.lit "\\r").utf8Length = 2 := by decide
    omega
  split
  · next hlt =>
      have hlen : (PyStr.lit "\\u00").utf8Length = 4 := by decide
      have hdigit : ∀ n < 16, (hexDigit n).utf8.length = 1 := by decide
      rw [PyStr.utf8Length_append, hlen, PyStr.utf8Length_cons, PyStr.utf8Length_cons,
        hdigit _ (by omega), hdigit _ (by omega), PyStr.utf8Length_nil]
      omega
  · rw [PyStr.utf8Length_cons, PyStr.utf8Length_nil]
    omega

/-- A character is quoted in six bytes at most. -/
theorem jsonString_utf8Length (s : PyStr) :
    (jsonString s).utf8Length ≤ 6 * s.utf8Length + 2 := by
  have hbody : PyStr.utf8Length (s.flatMap jsonEscape) ≤ 6 * s.utf8Length := by
    induction s with
    | nil => simp
    | cons c cs ih =>
        have hc := jsonEscape_utf8Length c
        rw [List.flatMap_cons, PyStr.utf8Length_append, PyStr.utf8Length_cons]
        omega
  have hquote : PyStr.utf8Length [0x22] = 1 := by decide
  rw [jsonString, PyStr.utf8Length_append, PyStr.utf8Length_append, hquote]
  omega

/-- The payload of a validated credential fits. -/
theorem configText_utf8Length {ssid password : PyStr} (hs : ssid.utf8Length ≤ 32)
    (hp : password.utf8Length ≤ 64) :
    (configText ssid password).utf8Length < maxConfigBytes := by
  have hssid := jsonString_utf8Length ssid
  have hpassword := jsonString_utf8Length password
  have hopen : (PyStr.lit "\x7b\"version\":1,\"ssid\":").utf8Length = 20 := by decide
  have hmid : (PyStr.lit ",\"password\":").utf8Length = 12 := by decide
  have hclose : (PyStr.lit "\x7d").utf8Length = 1 := by decide
  simp only [configText, PyStr.utf8Length_append, hopen, hmid, hclose, maxConfigBytes]
  omega

/-! ## the write -/

/-- The `try` body of `persist_credentials`; `false` is an `OSError`. -/
def replaceConfig (E : Env) (payload : List UInt8) : Script Entry Bool := do
  match ← E.runFile (.writeTemporary payload) with
  | false => pure false
  | true =>
      match ← E.runFile (.replaceConfig payload) with
      | false => pure false
      | true =>
          match ← E.runFile .openDirectory with
          | false => pure false
          | true => E.runFile .syncDirectory

/-- `persist_credentials` from the temporary file on. -/
def writeConfig (E : Env) (payload : List UInt8) : Script Entry (Except PyExc Unit) := do
  match ← E.runFile .openTemporary with
  | false => pure (.error .osError)
  | true =>
      let replaced ← replaceConfig E payload
      let unlinked ← E.runFile .unlinkTemporary
      pure (if replaced && unlinked then .ok () else .error .osError)

/-- `persist_credentials`. -/
def persistCredentials (E : Env) (ssid password : PyStr) : Script Entry (Except PyExc Unit) := do
  match ← persistentStorageReady E with
  | .error e => pure (.error e)
  | .ok false => pure (.error .osError)
  | .ok true =>
      match (configText ssid password).encodeUtf8 with
      | .error e => pure (.error e)
      | .ok text =>
          let payload := text ++ [0x0a]
          if maxConfigBytes < payload.length then pure (.error .osError)
          else writeConfig E payload

end SushidaOs
