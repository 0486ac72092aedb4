import SushidaOs.JsonLoads
import SushidaOs.Lines
import SushidaOs.Wifi.Connect

/-!
# SushidaOs.Wifi.Credentials

`load_credentials` (`sushida_os/wifi/storage.py`): what is read back from
`setup.json` at the next boot.

The file is arbitrary bytes, read as UTF-8 text in text mode and as JSON.
Whatever `json.loads` raises beside a `JSONDecodeError`, and whatever the
validators raise on the strings of the document, is not caught.
-/

namespace SushidaOs

open PyStr JsonLoads
open Script (Spec)

/-- `setup.json` as `lstat` and `read_text` find it. -/
structure SetupFile where
  isRegular : Bool
  mode : Nat
  uid : Nat
  content : List UInt8
  deriving DecidableEq, Repr

/-- What `load_credentials` raises: an exception of `json.loads` that is no
`JSONDecodeError`, or one of the validators. -/
inductive LoadExc where
  | json (e : LoadError)
  | validator (e : PyExc)
  deriving DecidableEq, Repr

/-- `load_credentials` on the document. -/
def credentialsOf : PyValue → Except LoadExc (Option (PyStr × PyStr))
  | .dict data =>
      if ((PyValue.get (lit "version") data).any fun v => v.eqInt 1) = false then .ok none
      else match PyValue.get (lit "ssid") data, PyValue.get (lit "password") data with
        | some (.str ssid), some (.str password) =>
            match validateCredentials ssid password with
            | .error e => .error (.validator e)
            | .ok (some _) => .ok none
            | .ok none => .ok (some (ssid, password))
        | _, _ => .ok none
  | _ => .ok none

/-- `json.loads(path.read_text(encoding="utf-8"))` and the rest of
`load_credentials`. -/
def credentialsIn (L : JsonLimits) (content : List UInt8) :
    Except LoadExc (Option (PyStr × PyStr)) :=
  match Utf8.decodeStrict content with
  | none => .ok none
  | some text =>
      match loads L.toFloat L.depth text.universalNewlines with
      | .error .decodeError => .ok none
      | .error e => .error (.json e)
      | .ok data => credentialsOf data

/-- `load_credentials`; a file that cannot be examined or read is `none`. -/
def loadCredentials (L : JsonLimits) (uid : Nat) (file : Option SetupFile) :
    Except LoadExc (Option (PyStr × PyStr)) :=
  match file with
  | none => .ok none
  | some file =>
      if !file.isRegular || decide (maxConfigBytes < file.content.length) then .ok none
      else if file.mode ≠ 0o600 || file.uid ≠ uid then .ok none
      else credentialsIn L file.content

/-- A private file of the right owner that is not too long is read. -/
theorem loadCredentials_private (L : JsonLimits) {uid : Nat} {file : SetupFile}
    (hregular : file.isRegular = true) (hmode : file.mode = 0o600) (huid : file.uid = uid)
    (hsize : file.content.length ≤ maxConfigBytes) :
    loadCredentials L uid (some file) = credentialsIn L file.content := by
  simp [loadCredentials, hregular, hmode, huid, Nat.not_lt.mpr hsize]

/-! ## damaged files -/

/-- The validators answer: they meet a lone surrogate only after a check that
refuses the string for another reason. -/
def ValidatorsAnswer (ssid password : PyStr) : Prop :=
  (ssid = [] ∨ PyStr.contains [0xfffd] ssid = true ∨ ssid.Encodable) ∧
    (validateSsid ssid = .ok none → validatePasswordShape password = none → password.Encodable)

theorem validateSsid_answers_iff (ssid : PyStr) :
    (∃ answer, validateSsid ssid = .ok answer) ↔
      ssid = [] ∨ PyStr.contains [0xfffd] ssid = true ∨ ssid.Encodable := by
  unfold validateSsid
  split
  · next hearly =>
      rw [Bool.or_eq_true, List.isEmpty_iff] at hearly
      exact iff_of_true ⟨_, rfl⟩ (hearly.elim .inl fun h => .inr (.inl h))
  · next hlate =>
      rw [Bool.or_eq_true, List.isEmpty_iff, not_or] at hlate
      constructor
      · rintro ⟨answer, h⟩
        cases henc : ssid.encodeUtf8 with
        | error e =>
            simp only [henc] at h
            contradiction
        | ok bytes => exact .inr (.inr (encodable_of_encodeUtf8 henc))
      · intro h
        have henc := (h.resolve_left hlate.1).resolve_left hlate.2
        obtain ⟨bytes, hbytes⟩ := encodeUtf8_of_encodable henc
        simp only [hbytes]
        split
        · exact ⟨_, rfl⟩
        split
        · exact ⟨_, rfl⟩
        · exact ⟨_, rfl⟩

/-- `validate_credentials` raises exactly on strings it measures and cannot
encode. -/
theorem validateCredentials_answers_iff (ssid password : PyStr) :
    (∃ answer, validateCredentials ssid password = .ok answer) ↔
      ValidatorsAnswer ssid password := by
  rw [ValidatorsAnswer, ← validateSsid_answers_iff]
  unfold validateCredentials
  cases hssid : validateSsid ssid with
  | error e => simp
  | ok answer =>
      cases answer with
      | some message => simp
      | none =>
          cases hshape : validatePasswordShape password with
          | some message => simp
          | none =>
              simp only [exists_eq', true_and, true_implies, Except.ok.injEq]
              constructor
              · rintro ⟨answer, h⟩
                cases henc : password.encodeUtf8 with
                | error e =>
                    simp only [henc] at h
                    contradiction
                | ok bytes => exact encodable_of_encodeUtf8 henc
              · intro henc
                obtain ⟨bytes, hbytes⟩ := encodeUtf8_of_encodable henc
                simp only [hbytes]
                split
                · exact ⟨_, rfl⟩
                · exact ⟨_, rfl⟩

/-- `load_credentials` answers, with nothing or with a valid pair. -/
def FailsClosed (L : JsonLimits) (uid : Nat) (file : SetupFile) : Prop :=
  ∃ res, loadCredentials L uid (some file) = .ok res ∧
    ∀ ssid password, res = some (ssid, password) → validateCredentials ssid password = .ok none

/-- What a damaged file must not hold: an integer of too many digits or too
many nested containers, before any syntax error; or credentials with a lone
surrogate that the validators would measure. -/
structure Harmless (L : JsonLimits) (content : List UInt8) : Prop where
  digits : ∀ text, Utf8.decodeStrict content = some text →
    loads L.toFloat L.depth text.universalNewlines ≠ .error .valueError
  nesting : ∀ text, Utf8.decodeStrict content = some text →
    loads L.toFloat L.depth text.universalNewlines ≠ .error .recursionError
  surrogates : ∀ text data ssid password, Utf8.decodeStrict content = some text →
    loads L.toFloat L.depth text.universalNewlines = .ok (.dict data) →
    ((PyValue.get (lit "version") data).any fun v => v.eqInt 1) = true →
    PyValue.get (lit "ssid") data = some (.str ssid) →
    PyValue.get (lit "password") data = some (.str password) → ValidatorsAnswer ssid password

/-- A pair that was loaded is valid. -/
theorem valid_of_credentialsOf {data : PyValue} {ssid password : PyStr}
    (h : credentialsOf data = .ok (some (ssid, password))) :
    validateCredentials ssid password = .ok none := by
  unfold credentialsOf at h
  split at h
  · split at h
    · simp at h
    · split at h
      · split at h
        · simp at h
        · simp at h
        · next hvalid =>
            simp only [Except.ok.injEq, Option.some.injEq, Prod.mk.injEq] at h
            rw [← h.1, ← h.2]
            exact hvalid
      · simp at h
  · simp at h

/-- The document makes `load_credentials` raise exactly when the validators
raise on its strings. -/
theorem credentialsOf_answers_iff (data : PyValue) :
    (∃ res, credentialsOf data = .ok res) ↔
      ∀ fields ssid password, data = .dict fields →
        ((PyValue.get (lit "version") fields).any fun v => v.eqInt 1) = true →
        PyValue.get (lit "ssid") fields = some (.str ssid) →
        PyValue.get (lit "password") fields = some (.str password) →
        ValidatorsAnswer ssid password := by
  constructor
  · rintro ⟨res, h⟩ fields ssid password rfl hversion hssid hpassword
    rw [← validateCredentials_answers_iff]
    simp only [credentialsOf, hversion, hssid, hpassword, Bool.true_eq_false, if_false] at h
    cases hvalid : validateCredentials ssid password with
    | error e =>
        simp only [hvalid] at h
        contradiction
    | ok answer => exact ⟨answer, rfl⟩
  · intro h
    unfold credentialsOf
    split
    · next fields =>
        split
        · exact ⟨_, rfl⟩
        · next hversion =>
            split
            · next ssid password hssid hpassword =>
                have hanswers :=
                  h fields ssid password rfl (by simpa using hversion) hssid hpassword
                obtain ⟨answer, hanswer⟩ := (validateCredentials_answers_iff _ _).mpr hanswers
                rw [hanswer]
                cases answer with
                | none => exact ⟨_, rfl⟩
                | some message => exact ⟨_, rfl⟩
            · exact ⟨_, rfl⟩
    · exact ⟨_, rfl⟩

/-- **Damaged files**: `load_credentials` fails closed on a private file of the
right owner exactly when its content is harmless. -/
theorem load_fails_closed_iff (L : JsonLimits) (uid : Nat) (file : SetupFile)
    (hregular : file.isRegular = true) (hmode : file.mode = 0o600) (huid : file.uid = uid)
    (hsize : file.content.length ≤ maxConfigBytes) :
    FailsClosed L uid file ↔ Harmless L file.content := by
  unfold FailsClosed
  rw [loadCredentials_private L hregular hmode huid hsize, credentialsIn]
  cases htext : Utf8.decodeStrict file.content with
  | none =>
      refine iff_of_true ⟨none, rfl, fun _ _ h => nomatch h⟩ ⟨?_, ?_, ?_⟩
      · intro text h
        rw [htext] at h
        contradiction
      · intro text h
        rw [htext] at h
        contradiction
      · intro text data ssid password h
        rw [htext] at h
        contradiction
  | some text =>
      have hsame : ∀ {text'}, Utf8.decodeStrict file.content = some text' → text' = text := by
        intro text' h
        rw [htext] at h
        exact (Option.some.inj h).symm
      simp only
      cases hdata : loads L.toFloat L.depth text.universalNewlines with
      | error e =>
          constructor
          · rintro ⟨res, h, -⟩
            cases e with
            | decodeError =>
                refine ⟨?_, ?_, ?_⟩
                · intro text' h'
                  rw [hsame h', hdata]
                  simp
                · intro text' h'
                  rw [hsame h', hdata]
                  simp
                · intro text' data ssid password h' hd
                  rw [hsame h', hdata] at hd
                  contradiction
            | valueError | recursionError | outOfFuel => contradiction
          · intro h
            cases e with
            | decodeError => exact ⟨none, rfl, fun _ _ h => nomatch h⟩
            | valueError => exact absurd hdata (h.digits text htext)
            | recursionError => exact absurd hdata (h.nesting text htext)
            | outOfFuel => exact absurd hdata (loads_ne_outOfFuel _ _ _)
      | ok data =>
          simp only
          constructor
          · rintro ⟨res, hres, -⟩
            refine ⟨?_, ?_, ?_⟩
            · intro text' h'
              rw [hsame h', hdata]
              simp
            · intro text' h'
              rw [hsame h', hdata]
              simp
            · intro text' fields ssid password h' hd
              rw [hsame h', hdata, Except.ok.injEq] at hd
              exact (credentialsOf_answers_iff data).mp ⟨res, hres⟩ fields ssid password hd
          · intro h
            have hanswers : ∃ res, credentialsOf data = .ok res := by
              rw [credentialsOf_answers_iff]
              rintro fields ssid password rfl
              exact h.surrogates text fields ssid password htext hdata
            obtain ⟨res, hres⟩ := hanswers
            refine ⟨res, hres, ?_⟩
            rintro ssid password rfl
            exact valid_of_credentialsOf hres

/-- A private file of user 1000. -/
def setupFile (content : PyStr) : SetupFile :=
  { isRegular := true, mode := 0o600, uid := 1000, content := Utf8.asciiBytes content }

/-- A file cut short. -/
def tornText : PyStr := lit "\x7b\"version\":1,\"ss"

/-- A file cut short is harmless, so it fails closed. -/
theorem load_fails_closed_torn : FailsClosed .default 1000 (setupFile tornText) := by
  have hascii : ∀ c ∈ tornText, c.val < 0x80 := forall_of_all (by decide)
  have hdecode : Utf8.decodeStrict (setupFile tornText).content = some tornText := by
    rw [setupFile, ← Utf8.flatMap_utf8_ascii hascii,
      Utf8.decodeStrict_utf8 (Utf8.encodable_of_ascii hascii)]
  have hloads : ∀ text, Utf8.decodeStrict (setupFile tornText).content = some text →
      loads JsonLimits.default.toFloat JsonLimits.default.depth text.universalNewlines =
        .error .decodeError := by
    intro text htext
    obtain rfl : text = tornText := Option.some.inj (htext.symm.trans hdecode)
    rw [PyStr.universalNewlines_free (forall_of_all (by decide)), tornText, lit_ofList]
    rfl
  refine (load_fails_closed_iff .default 1000 (setupFile tornText) rfl rfl rfl (by decide)).mpr
    ⟨fun text htext hvalue => ?_, fun text htext hnested => ?_,
      fun text data ssid password htext hdata => ?_⟩
  · rw [hloads text htext] at hvalue
    cases hvalue
  · rw [hloads text htext] at hnested
    cases hnested
  · rw [hloads text htext] at hdata
    cases hdata

/-- The fields of a file whose name is an escaped lone surrogate. -/
def surrogateName : List Field :=
  [ ⟨lit "version", [0x31], .int 1⟩,
    ⟨lit "ssid", lit "\"\\ud800\"", .str [0xd800]⟩,
    ⟨lit "password", lit "\"\"", .str []⟩ ]

theorem surrogateName_text : 0x7b :: Field.write surrogateName [] =
    lit "\x7b\"version\":1,\"ssid\":\"\\ud800\",\"password\":\"\"\x7d" := by
  rw [lit_ofList]
  decide

theorem surrogateName_reads (toFloat : PyStr → PyFloat) (depth : Nat) :
    ∀ field ∈ surrogateName, field.Reads (scanOnce toFloat depth) := by
  have hstring : ∀ rest, scanOnce toFloat depth (lit "\"\\ud800\"" ++ rest) =
      .ok (.str [0xd800], rest) := by
    intro rest
    have htext : lit "\"\\ud800\"" ++ rest =
        0x22 :: 0x5c :: 0x75 :: 0x64 :: 0x38 :: 0x30 :: 0x30 :: 0x22 :: rest := by
      rw [lit_ofList]
      rfl
    have hunit : hexUnit 0x64 0x38 0x30 0x30 = some 0xd800 := by decide
    have hclose : scanChars (0x22 :: rest) = some ([], rest) := by
      rw [scanChars.eq_def]
      rfl
    have hscan : scanString (0x5c :: 0x75 :: 0x64 :: 0x38 :: 0x30 :: 0x30 :: 0x22 :: rest) =
        .ok ([0xd800], rest) := by
      rw [scanString, scanChars_unit hunit, hclose]
      rfl
    rw [htext]
    cases depth <;> rw [scanOnce, scanWith, if_pos rfl, hscan]
  intro field hfield
  simp only [surrogateName, List.mem_cons, List.not_mem_nil, or_false] at hfield
  rcases hfield with rfl | rfl | rfl
  · exact Field.Reads.one toFloat depth (by decide)
  · exact ⟨by decide, ⟨0x22, _, rfl, by decide⟩, fun c rest _ => hstring (c :: rest)⟩
  · exact @Field.Reads.str toFloat depth jsonEscape _ [] (by decide)
      fun c hc => absurd hc List.not_mem_nil

/-- A name that is an escaped lone surrogate cannot be measured, and
`UnicodeEncodeError` is not caught. -/
theorem load_surrogate_raises :
    ¬ FailsClosed .default 1000
      (setupFile (lit "\x7b\"version\":1,\"ssid\":\"\\ud800\",\"password\":\"\"\x7d")) := by
  have hload : loadCredentials .default 1000 (some
      (setupFile (lit "\x7b\"version\":1,\"ssid\":\"\\ud800\",\"password\":\"\"\x7d"))) =
      .error (.validator .unicodeEncodeError) := by
    have hload := @loads_write JsonLimits.default.toFloat 999 surrogateName [] (by decide)
      (surrogateName_reads _ _) rfl
    have hlines : PyStr.universalNewlines (0x7b :: Field.write surrogateName []) =
        0x7b :: Field.write surrogateName [] :=
      PyStr.universalNewlines_free (forall_of_all (by decide))
    have hascii : ∀ c ∈ (0x7b :: Field.write surrogateName []), c.val < 0x80 :=
      forall_of_all (by decide)
    rw [← surrogateName_text, @loadCredentials_private .default 1000
      (setupFile (0x7b :: Field.write surrogateName [])) rfl rfl rfl (by decide), setupFile,
      credentialsIn, ← Utf8.flatMap_utf8_ascii hascii,
      Utf8.decodeStrict_utf8 (Utf8.encodable_of_ascii hascii)]
    simp only [hlines]
    rw [show JsonLimits.default.depth = 999 + 1 from rfl, hload]
    rfl
  rintro ⟨res, hres, -⟩
  rw [hload] at hres
  cases hres

/-! ## what was saved -/

/-- Every character is written so that it is read back. -/
theorem escapes_jsonEscape (c : CodePoint) : Escapes jsonEscape c := by
  have hsimple : ∀ {e : CodePoint}, simpleEscape e = some c → jsonEscape c = [0x5c, e] →
      Escapes jsonEscape c := by
    intro e he hesc
    refine ⟨false, rfl, fun rest => ?_⟩
    rw [hesc]
    exact scanChars_simple he rest
  by_cases hquote : c = 0x22 ∨ c = 0x5c
  · refine hsimple (e := c) ?_ ?_
    · cases hquote with
      | inl h => rw [h]; rfl
      | inr h => rw [h]; rfl
    · simp [jsonEscape, hquote]
  rw [not_or] at hquote
  by_cases hb : c = 0x08
  · exact hsimple (e := 0x62) (by rw [hb]; rfl) (by rw [hb]; rfl)
  by_cases ht : c = 0x09
  · exact hsimple (e := 0x74) (by rw [ht]; rfl) (by rw [ht]; rfl)
  by_cases hn : c = 0x0a
  · exact hsimple (e := 0x6e) (by rw [hn]; rfl) (by rw [hn]; rfl)
  by_cases hf : c = 0x0c
  · exact hsimple (e := 0x66) (by rw [hf]; rfl) (by rw [hf]; rfl)
  by_cases hr : c = 0x0d
  · exact hsimple (e := 0x72) (by rw [hr]; rfl) (by rw [hr]; rfl)
  by_cases hlow : c.val < 0x20
  · have hunit : hexUnit 0x30 0x30 (hexDigit (c.val / 16)) (hexDigit (c.val % 16)) = some c := by
      have hall : ∀ n, n < 0x20 → hexUnit 0x30 0x30 (hexDigit (n / 16)) (hexDigit (n % 16)) =
          some (Fin.ofNat _ n) := by decide
      rw [hall c.val hlow]
      simp
    refine ⟨true, ?_, fun rest => ?_⟩
    · simp only [isHighSurrogate, Bool.true_and, Bool.and_eq_false_iff, decide_eq_false_iff_not]
      omega
    · have hesc : jsonEscape c =
          [0x5c, 0x75, 0x30, 0x30, hexDigit (c.val / 16), hexDigit (c.val % 16)] := by
        simp only [jsonEscape, hquote.1, hquote.2, hb, ht, hn, hf, hr, hlow, decide_false,
          Bool.or_false, Bool.false_eq_true, if_false, if_true]
        rfl
      rw [hesc]
      exact scanChars_unit hunit rest
  · refine escapes_plain ?_ ?_
    · simp only [isPlain, Bool.and_eq_true, decide_eq_true_eq, bne_iff_ne]
      exact ⟨⟨by omega, hquote.1⟩, hquote.2⟩
    · simp [jsonEscape, hquote.1, hquote.2, hb, ht, hn, hf, hr, hlow]

/-- The document of `persist_credentials`. -/
def configFields (ssid password : PyStr) : List (PyStr × PyValue) :=
  [(lit "version", .int 1), (lit "ssid", .str ssid), (lit "password", .str password)]

/-- The fields of the payload. -/
def writtenFields (ssid password : PyStr) : List Field :=
  [ ⟨lit "version", [0x31], .int 1⟩,
    ⟨lit "ssid", 0x22 :: (ssid.flatMap jsonEscape ++ [0x22]), .str ssid⟩,
    ⟨lit "password", 0x22 :: (password.flatMap jsonEscape ++ [0x22]), .str password⟩ ]

theorem configText_eq_write (ssid password : PyStr) :
    configText ssid password ++ [0x0a] =
      0x7b :: Field.write (writtenFields ssid password) [0x0a] := by
  have hopen : lit "\x7b\"version\":1,\"ssid\":" = 0x7b :: 0x22 :: (lit "version" ++
      0x22 :: 0x3a :: 0x31 :: 0x2c :: 0x22 :: (lit "ssid" ++ [0x22, 0x3a])) := by decide
  have hmid : lit ",\"password\":" = 0x2c :: 0x22 :: (lit "password" ++ [0x22, 0x3a]) := by decide
  have hclose : lit "\x7d" = [0x7d] := by decide
  rw [configText, jsonString, jsonString, hopen, hmid, hclose]
  simp only [writtenFields, Field.write, List.append_assoc, List.cons_append, List.nil_append]

/-- The payload is read as the document it was made from. -/
theorem loads_configText (toFloat : PyStr → PyFloat) (depth : Nat) (ssid password : PyStr) :
    loads toFloat (depth + 1) (configText ssid password ++ [0x0a]) =
      .ok (.dict (configFields ssid password)) := by
  have hreads : ∀ field ∈ writtenFields ssid password,
      field.Reads (scanOnce toFloat depth) := by
    intro field hfield
    simp only [writtenFields, List.mem_cons, List.not_mem_nil, or_false] at hfield
    rcases hfield with rfl | rfl | rfl
    · exact Field.Reads.one toFloat depth (by decide)
    · exact Field.Reads.str toFloat depth (by decide) fun c _ => escapes_jsonEscape c
    · exact Field.Reads.str toFloat depth (by decide) fun c _ => escapes_jsonEscape c
  rw [configText_eq_write, loads_write toFloat depth (by simp [writtenFields]) hreads (by decide)]
  rfl

theorem not_mem_cr {s : PyStr} (h : s.all (· != 0x0d) = true) : 0x0d ∉ s :=
  fun hmem => absurd (List.all_eq_true.mp h _ hmem) (by decide)

theorem ne_cr_of_mem_jsonEscape {c d : CodePoint} (hd : d ∈ jsonEscape c) : d ≠ 0x0d := by
  have hhex : ∀ n < 16, hexDigit n ≠ 0x0d := by decide
  rintro rfl
  unfold jsonEscape at hd
  split at hd
  · next hquote =>
      simp only [List.mem_cons, List.not_mem_nil, or_false] at hd
      have hc := hd.resolve_left (by decide)
      rw [← hc] at hquote
      contradiction
  split at hd
  · exact not_mem_cr (by decide) hd
  split at hd
  · exact not_mem_cr (by decide) hd
  split at hd
  · exact not_mem_cr (by decide) hd
  split at hd
  · exact not_mem_cr (by decide) hd
  split at hd
  · exact not_mem_cr (by decide) hd
  next hcr =>
  split at hd
  · next hlow =>
      simp only [List.mem_append, List.mem_cons, List.not_mem_nil, or_false] at hd
      rcases hd with hd | hd | hd
      · exact not_mem_cr (by decide) hd
      · exact hhex _ (by omega) hd.symm
      · exact hhex _ (by omega) hd.symm
  · exact hcr (List.mem_singleton.mp hd).symm

/-- The payload has no carriage return, so text mode leaves it as it is. -/
theorem universalNewlines_configText (ssid password : PyStr) :
    (configText ssid password ++ [0x0a]).universalNewlines =
      configText ssid password ++ [0x0a] := by
  have hstring : ∀ s, 0x0d ∉ jsonString s := by
    intro s hs
    simp only [jsonString, List.mem_append, List.mem_flatMap] at hs
    rcases hs with (hs | ⟨c, -, hs⟩) | hs
    · exact not_mem_cr (by decide) hs
    · exact ne_cr_of_mem_jsonEscape hs rfl
    · exact not_mem_cr (by decide) hs
  apply universalNewlines_free
  rintro c hc rfl
  simp only [configText, List.mem_append] at hc
  rcases hc with ((((hc | hc) | hc) | hc) | hc) | hc
  · exact not_mem_cr (by decide) hc
  · exact hstring _ hc
  · exact not_mem_cr (by decide) hc
  · exact hstring _ hc
  · exact not_mem_cr (by decide) hc
  · exact not_mem_cr (by decide) hc

/-- The document of valid credentials gives them back. -/
theorem credentialsOf_configFields {ssid password : PyStr}
    (h : validateCredentials ssid password = .ok none) :
    credentialsOf (.dict (configFields ssid password)) = .ok (some (ssid, password)) := by
  have hversion : PyValue.get (lit "version") (configFields ssid password) = some (.int 1) := rfl
  have hssid : PyValue.get (lit "ssid") (configFields ssid password) = some (.str ssid) := rfl
  have hpassword :
      PyValue.get (lit "password") (configFields ssid password) = some (.str password) := rfl
  simp only [credentialsOf, hversion, hssid, hpassword, h]
  rfl

/-- **Round trip** of valid credentials through the payload. -/
theorem credentialsIn_payload (L : JsonLimits) {ssid password : PyStr} {text : List UInt8}
    (h : validateCredentials ssid password = .ok none)
    (htext : (configText ssid password).encodeUtf8 = .ok text) :
    credentialsIn L (text ++ [0x0a]) = .ok (some (ssid, password)) := by
  have henc := encodable_of_encodeUtf8 htext
  have hlf : PyStr.Encodable [0x0a] := encodable_lit "\n"
  have hbytes : text ++ [0x0a] = (configText ssid password ++ [0x0a]).flatMap CodePoint.utf8 := by
    rw [encodeUtf8_eq henc, Except.ok.injEq] at htext
    rw [List.flatMap_append, htext]
    rfl
  obtain ⟨depth, hdepth⟩ := Nat.exists_eq_succ_of_ne_zero L.depth_pos.ne'
  rw [credentialsIn, hbytes, Utf8.decodeStrict_utf8 (henc.append hlf)]
  simp only
  rw [universalNewlines_configText, hdepth, loads_configText]
  exact credentialsOf_configFields h

/-- The storage is ready and no file operation fails. -/
structure Env.StorageWorks (E : Env) : Prop where
  ready : ∀ journal, (E.storage journal).ready E.uid = .ok true
  files : ∀ journal op, E.file journal op = true

theorem writeConfig_works {E : Env} (hE : E.StorageWorks) (payload : List UInt8)
    (journal : List Entry) :
    writeConfig E payload journal = (.ok (), journal ++
      [ .file .openTemporary true, .file (.writeTemporary payload) true,
        .file (.replaceConfig payload) true, .file .openDirectory true,
        .file .syncDirectory true, .file .unlinkTemporary true ]) := by
  simp [writeConfig, replaceConfig, Env.runFile, Script.ask, Bind.bind, Script.bind, Pure.pure,
    Script.pure, hE.files]

/-- `persist_credentials` of a valid pair replaces `setup.json` by a payload
that is not too long. -/
theorem persistCredentials_works {E : Env} (hE : E.StorageWorks) {ssid password : PyStr}
    (h : validateCredentials ssid password = .ok none) (content : Option (List UInt8)) :
    ∃ text, (configText ssid password).encodeUtf8 = .ok text ∧
      (text ++ [0x0a]).length ≤ maxConfigBytes ∧
      (persistCredentials E ssid password).run.1 = .ok () ∧
      setupJson content (persistCredentials E ssid password).run.2 = some (text ++ [0x0a]) := by
  have hssid := validateSsid_of_validateCredentials h
  obtain ⟨text, htext⟩ := encodeUtf8_of_encodable
    (encodable_configText (encodable_of_validateSsid hssid) (encodable_of_validateCredentials h))
  have hsize : (text ++ [0x0a]).length ≤ maxConfigBytes := by
    have hlen := configText_utf8Length (length_of_validateSsid hssid)
      (length_of_validateCredentials h)
    rw [utf8Length_of_encodeUtf8 htext] at hlen
    rw [List.length_append, List.length_singleton]
    omega
  have hrun : (persistCredentials E ssid password).run =
      writeConfig E (text ++ [0x0a]) [.storageRead (E.storage [])] := by
    simp only [Script.run, persistCredentials, persistentStorageReady, Script.ask, Bind.bind,
      Script.bind, Pure.pure, Script.pure, hE.ready, htext, if_neg (Nat.not_lt.mpr hsize),
      List.nil_append]
  refine ⟨text, htext, hsize, ?_, ?_⟩
  · rw [hrun, writeConfig_works hE]
  · rw [hrun, writeConfig_works hE]
    rfl

/-! ## what is given to be saved -/

/-- `persist_credentials` and the probe before it are all that read or write
files. -/
def Entry.isStorage : Entry → Bool
  | .storageRead _ | .file _ _ => true
  | _ => false

/-- What passes the checks of the connect chain is valid: for an open network
the password is empty. -/
theorem Admissible.valid {mode : SecurityMode} {ssid password : PyStr}
    (h : Admissible mode ssid password) (hssid : validateSsid ssid = .ok none) :
    validateCredentials ssid password = .ok none := by
  cases h with
  | inl hopen =>
      rw [hopen.2]
      simp [validateCredentials, hssid, validatePasswordShape, encodeUtf8]
  | inr hwpa => exact hwpa.2.2

/-- The checks of `_connect_wifi` before the first change touch no storage. -/
theorem connectScanned_storage_spec (E : Env) {ssid password : PyStr}
    (hssid : validateSsid ssid = .ok none) :
    Spec (connectScanned E ssid password) fun _ t =>
      (∃ e ∈ t, e.isStorage = true) → validateCredentials ssid password = .ok none := by
  refine Spec.bind (scanNetworks_spec E) ?_
  rintro scanned t ⟨report, a, rfl, -⟩
  have hquiet : ∀ res : Except PyExc (Bool × String),
      Spec (pure res : Script Entry (Except PyExc (Bool × String))) fun _ u =>
        (∃ e ∈ [Entry.nmcli .scan report a] ++ u, e.isStorage = true) →
          validateCredentials ssid password = .ok none :=
    fun res => Spec.pure (by simp [Entry.isStorage])
  cases scanned with
  | error e => exact hquiet _
  | ok networks =>
      dsimp only
      cases networks.find? fun item => item.ssid = ssid with
      | none => exact hquiet _
      | some selected =>
          dsimp only
          cases hrefusal : refusal (classifySecurity E.unicode selected.security) ssid password with
          | error e => exact hquiet _
          | ok message =>
              cases message with
              | some m => exact hquiet _
              | none =>
                  have hadm := admissible_of_refusal hrefusal
                  have hchange := changeConnection_spec E
                    (classifySecurity E.unicode selected.security)
                    (encodable_of_validateSsid hssid) hadm.encodable
                  exact hchange.mono fun _ _ _ _ => hadm.valid hssid

/-- A call of `connect_wifi` comes to the storage only with a valid pair. -/
theorem connectWifi_storage_spec (E : Env) (ssid password : PyStr) :
    Spec (connectWifi E ssid password) fun _ t =>
      (∃ e ∈ t, e.isStorage = true) → validateCredentials ssid password = .ok none := by
  unfold connectWifi
  cases hssid : validateSsid ssid with
  | error e => exact Spec.pure (by simp)
  | ok error =>
      cases error with
      | some m => exact Spec.pure (by simp)
      | none =>
          dsimp only
          cases validatePasswordShape password with
          | some m => exact Spec.pure (by simp)
          | none => exact connectScanned_storage_spec E hssid

/-- **Saved and restored**: a valid pair is saved in a file that is not too long
and from which it is loaded, and `connect_wifi` comes to the storage only with
a valid pair. -/
theorem saved_credentials_restored (L : JsonLimits) (ssid password : PyStr) :
    (validateCredentials ssid password = .ok none → ∀ E : Env, E.StorageWorks →
      ∀ content, ∃ payload, (persistCredentials E ssid password).run.1 = .ok () ∧
        setupJson content (persistCredentials E ssid password).run.2 = some payload ∧
        payload.length ≤ maxConfigBytes ∧
        loadCredentials L E.uid (some ⟨true, 0o600, E.uid, payload⟩) =
          .ok (some (ssid, password))) ∧
    (∀ E : Env, (∃ e ∈ (connectWifi E ssid password).run.2, e.isStorage = true) →
      validateCredentials ssid password = .ok none) := by
  refine ⟨fun h E hE content => ?_, fun E => (connectWifi_storage_spec E ssid password).run⟩
  obtain ⟨text, htext, hsize, hok, hsaved⟩ := persistCredentials_works hE h content
  refine ⟨text ++ [0x0a], hok, hsaved, hsize, ?_⟩
  have hload : loadCredentials L E.uid (some ⟨true, 0o600, E.uid, text ++ [0x0a]⟩) =
      credentialsIn L (text ++ [0x0a]) := loadCredentials_private L rfl rfl rfl hsize
  rw [hload]
  exact credentialsIn_payload L h htext

/-- A machine whose storage works and whose radio is off. -/
def storageEnv : Env where
  unicode := .ascii
  uid := 1000
  nmcli _ _ _ := (.osError, false)
  passwdOpen _ _ := none
  passwdClose _ := true
  storage _ := ⟨some true, some ⟨true, false, 0o644, 0⟩, some ⟨false, true, 0o700, 1000⟩,
    some false, .text (lit "ready\n")⟩
  file _ _ := true

/-- An open network is saved and restored. -/
theorem saved_open_network_restored :
    ∃ payload, (persistCredentials storageEnv (lit "Net") []).run.1 = .ok () ∧
      setupJson none (persistCredentials storageEnv (lit "Net") []).run.2 = some payload ∧
      payload.length ≤ maxConfigBytes ∧
      loadCredentials .default 1000 (some ⟨true, 0o600, 1000, payload⟩) =
        .ok (some (lit "Net", [])) :=
  (saved_credentials_restored .default (lit "Net") []).1 (by decide) storageEnv
    ⟨fun _ => rfl, fun _ _ => rfl⟩ none

end SushidaOs
