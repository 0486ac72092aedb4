import SushidaOs.Decimal
import SushidaOs.Lines
import SushidaOs.Utf8

/-!
# SushidaOs.Config

The parser and validator of `/etc/sushida-os/config.env`
(`sushida_os/config.py`).

A file is read line by line: blank lines and comments are skipped, the others
are `KEY=value`.  `InOrder` says of a sequence of lines, without an order of
reading, what the parser accepts: no line is faulty and no key occurs twice
(`parse_isOk_iff`).
-/

namespace SushidaOs

open PyStr

namespace Config

/-- `Setting`. -/
structure Setting where
  key : PyStr
  minimum : Int := 0
  maximum : Int := 0
  default : Option Int := none
  optional : Bool := false
  url : Bool := false
  deriving DecidableEq, Repr

/-- `SETTINGS`. -/
def settings : List Setting :=
  [ { key := lit "SUSHIDA_URL", url := true },
    { key := lit "NETWORK_CHECK_INTERVAL_SECONDS", minimum := 30, maximum := 3600,
      default := some 30 },
    { key := lit "NETWORK_SETUP_GRACE_SECONDS", minimum := 0, maximum := 60,
      default := some 15 },
    { key := lit "AUDIO_VOLUME_PERCENT", minimum := 0, maximum := 100, optional := true },
    { key := lit "SCREEN_BRIGHTNESS_PERCENT", minimum := 5, maximum := 100, default := some 80 },
    { key := lit "SCREEN_ZOOM_PERCENT", minimum := 50, maximum := 300, optional := true } ]

/-- `key in SETTINGS`. -/
def isSetting (key : PyStr) : Bool := settings.any fun setting => setting.key == key

/-- The exceptions of the module; `int` raises a `ValueError` of its own. -/
inductive ConfigExc where
  | configError (message : PyStr)
  | keyError
  | valueError
  deriving DecidableEq, Repr

/-! ## syntax -/

/-- `line[:-1]` of a line that ends in a carriage return. -/
def stripCr (line : PyStr) : PyStr :=
  if line.getLast? == some 0x0d then line.dropLast else line

/-- `not line or line.startswith("#")`. -/
def isSkipped (line : PyStr) : Bool := line.isEmpty || line.head? == some 0x23

/-- The loop of `parse`, from the line `number` on; `raw` in insertion order. -/
def parseLines (number : Nat) (raw : List (PyStr × PyStr)) :
    List PyStr → Except ConfigExc (List (PyStr × PyStr))
  | [] => .ok raw
  | rawLine :: rest =>
      let line := stripCr rawLine
      if isSkipped line then parseLines (number + 1) raw rest
      else match partition 0x3d line with
        | (_, false, _) =>
            .error (.configError
              (lit "Invalid config line (missing '=') at line " ++ ofNat number))
        | (key, true, value) =>
            if isSetting key = false then
              .error (.configError (lit "Unknown config key at line " ++ ofNat number))
            else if raw.any (fun entry => entry.1 == key) then
              .error (.configError (lit "Duplicate " ++ key))
            else parseLines (number + 1) (raw ++ [(key, value)]) rest

/-- `parse`. -/
def parse (text : PyStr) : Except ConfigExc (List (PyStr × PyStr)) :=
  parseLines 1 [] (splitSep 0x0a text)

/-! ## values -/

/-- `SUSHIDA_ORIGIN`. -/
def sushidaOrigin : PyStr := lit "https://sushida.net"

/-- `url_allowed`. -/
def urlAllowed (url : PyStr) : Bool :=
  url == sushidaOrigin || url == sushidaOrigin ++ lit "/" ||
    (sushidaOrigin ++ lit "/").isPrefixOf url

/-- What `value` returns: `unset` is `None`. -/
inductive Value where
  | unset
  | int (n : Int)
  | url (s : PyStr)
  deriving DecidableEq, Repr

/-- `text.isascii() and text.isdigit()`. -/
def isAsciiDigits (text : PyStr) : Bool :=
  !text.isEmpty && text.all fun c => 0x30 ≤ c.val && c.val ≤ 0x39

/-- `value`. -/
def value (U : UnicodeData) (raw : List (PyStr × PyStr)) (key : PyStr) :
    Except ConfigExc Value :=
  match settings.find? fun setting => setting.key == key with
  | none => .error .keyError
  | some setting =>
      if setting.url then
        let url := (raw.lookup key).getD []
        if url.isEmpty then .error (.configError (key ++ lit " not set"))
        else if urlAllowed url = false then
          .error (.configError (lit "Invalid or disallowed URL: " ++ url))
        else .ok (.url url)
      else match raw.lookup key with
        | none => .ok ((setting.default.map Value.int).getD .unset)
        | some text =>
            if text.isEmpty && setting.optional then .ok .unset
            else if isAsciiDigits text = false then
              .error (.configError (key ++ lit " must be an integer"))
            else match toInt U text with
              | .error _ => .error .valueError
              | .ok number =>
                  if setting.minimum ≤ number ∧ number ≤ setting.maximum then .ok (.int number)
                  else .error (.configError (key ++ lit " must be between " ++
                    ofInt setting.minimum ++ lit " and " ++ ofInt setting.maximum))

/-- What `path.read_bytes()` finds. -/
inductive FileRead where
  | missing
  | unreadable
  | data (bytes : List UInt8)
  deriving DecidableEq, Repr

/-- `read`. -/
def read (path : PyStr) : FileRead → Except ConfigExc (List (PyStr × PyStr))
  | .missing => .error (.configError (lit "Config file not found: " ++ path))
  | .unreadable => .error (.configError (lit "Config file unreadable: " ++ path))
  | .data bytes => parse (Utf8.decodeEscape bytes)

/-- `load`. -/
def load (U : UnicodeData) (key path : PyStr) (file : FileRead) : Except ConfigExc Value :=
  match read path file with
  | .error e => .error e
  | .ok raw => value U raw key

/-! ## what the parser accepts -/

/-- The key and the value of a line that is not skipped and has a `=`. -/
def settingOf (line : PyStr) : Option (PyStr × PyStr) :=
  if isSkipped line then none
  else match partition 0x3d line with
    | (_, false, _) => none
    | (key, true, value) => some (key, value)

/-- A line that is neither skipped nor a setting of a known key. -/
def isFaulty (known : PyStr → Bool) (line : PyStr) : Bool :=
  !isSkipped line && match settingOf line with
    | none => true
    | some setting => !known setting.1

/-- The keys that the lines set. -/
def settingKeys (lines : List PyStr) : List PyStr := (lines.filterMap settingOf).map Prod.fst

/-- No line is faulty and no key occurs twice. -/
def InOrder (known : PyStr → Bool) (lines : List PyStr) : Prop :=
  (∀ line ∈ lines, isFaulty known line = false) ∧ (settingKeys lines).Nodup

/-- The same after lines that set the keys `seen`. -/
def InOrderAfter (known : PyStr → Bool) (seen lines : List PyStr) : Prop :=
  InOrder known lines ∧ ∀ key ∈ settingKeys lines, key ∉ seen

/-- The lines of a file: without line feeds and one carriage return at the
end. -/
def configLines (text : PyStr) : List PyStr := (splitSep 0x0a text).map stripCr

section InOrder

variable {known : PyStr → Bool} {seen seen' lines : List PyStr} {line key value : PyStr}

theorem settingOf_skipped (h : isSkipped line = true) : settingOf line = none := by
  rw [settingOf, if_pos h]

theorem isFaulty_skipped (h : isSkipped line = true) : isFaulty known line = false := by
  rw [isFaulty, h]
  rfl

theorem not_isSkipped_of_settingOf (h : settingOf line = some (key, value)) :
    isSkipped line = false := by
  cases hskip : isSkipped line with
  | false => rfl
  | true => rw [settingOf_skipped hskip] at h; contradiction

/-- A setting is faulty only where its key is unknown. -/
theorem isFaulty_setting (h : settingOf line = some (key, value)) :
    isFaulty known line = !known key := by
  rw [isFaulty, not_isSkipped_of_settingOf h, h]
  rfl

theorem settingKeys_cons_none (h : settingOf line = none) :
    settingKeys (line :: lines) = settingKeys lines := by
  rw [settingKeys, List.filterMap_cons_none h, settingKeys]

theorem settingKeys_cons_some (h : settingOf line = some (key, value)) :
    settingKeys (line :: lines) = key :: settingKeys lines := by
  rw [settingKeys, List.filterMap_cons_some h, List.map_cons, settingKeys]

theorem inOrderAfter_nil_iff : InOrderAfter known [] lines ↔ InOrder known lines :=
  ⟨fun h => h.1, fun h => ⟨h, fun _ _ => List.not_mem_nil⟩⟩

/-- A skipped line changes nothing. -/
theorem inOrderAfter_skipped (h : isSkipped line = true) :
    InOrderAfter known seen (line :: lines) ↔ InOrderAfter known seen lines := by
  rw [InOrderAfter, InOrderAfter, InOrder, InOrder, settingKeys_cons_none (settingOf_skipped h),
    List.forall_mem_cons]
  simp only [isFaulty_skipped h, true_and]

/-- A faulty line ends the reading. -/
theorem not_inOrderAfter_faulty (h : isFaulty known line = true) :
    ¬ InOrderAfter known seen (line :: lines) := by
  intro horder
  have hsound := horder.1.1 line List.mem_cons_self
  rw [h] at hsound
  contradiction

/-- A setting of a known key: the key is new, and seen from there on. -/
theorem inOrderAfter_setting (h : settingOf line = some (key, value)) (hknown : known key = true)
    (hseen : ∀ k, k ∈ seen' ↔ k = key ∨ k ∈ seen) :
    InOrderAfter known seen (line :: lines) ↔ key ∉ seen ∧ InOrderAfter known seen' lines := by
  have hsound : isFaulty known line = false := by
    rw [isFaulty_setting h, hknown]
    rfl
  rw [InOrderAfter, InOrderAfter, InOrder, InOrder, settingKeys_cons_some h, List.forall_mem_cons,
    List.forall_mem_cons, List.nodup_cons]
  simp only [hsound, true_and, hseen, not_or]
  constructor
  · intro hall
    have hne : ∀ k ∈ settingKeys lines, k ≠ key := by
      intro k hk heq
      rw [heq] at hk
      exact hall.1.2.1 hk
    exact ⟨hall.2.1, ⟨hall.1.1, hall.1.2.2⟩, fun k hk => ⟨hne k hk, hall.2.2 k hk⟩⟩
  · intro hall
    have hnotMem : key ∉ settingKeys lines := fun hk => (hall.2.2 key hk).1 rfl
    exact ⟨⟨hall.2.1.1, hnotMem, hall.2.1.2⟩, hall.1, fun k hk => (hall.2.2 k hk).2⟩

end InOrder

/-- The parser raises nothing but `ConfigError`. -/
theorem parseLines_error {number : Nat} {raw : List (PyStr × PyStr)} {lines : List PyStr}
    {e : ConfigExc} (h : parseLines number raw lines = .error e) :
    ∃ message, e = .configError message := by
  induction lines generalizing number raw with
  | nil => contradiction
  | cons rawLine rest ih =>
      simp only [parseLines] at h
      split at h
      · exact ih h
      · split at h
        · exact ⟨_, (Except.error.inj h).symm⟩
        · split at h
          · exact ⟨_, (Except.error.inj h).symm⟩
          · split at h
            · exact ⟨_, (Except.error.inj h).symm⟩
            · exact ih h

/-- **The loop**: it succeeds exactly on lines in order, and collects their
settings. -/
theorem parseLines_ok_iff (number : Nat) (raw : List (PyStr × PyStr)) (lines : List PyStr)
    (r : List (PyStr × PyStr)) :
    parseLines number raw lines = .ok r ↔
      InOrderAfter isSetting (raw.map Prod.fst) (lines.map stripCr) ∧
        r = raw ++ (lines.map stripCr).filterMap settingOf := by
  induction lines generalizing number raw with
  | nil =>
      have horder : InOrderAfter isSetting (raw.map Prod.fst) [] := by
        simp [InOrderAfter, InOrder, settingKeys]
      simp only [parseLines, List.map_nil, List.filterMap_nil, List.append_nil, horder, true_and,
        Except.ok.injEq, eq_comm]
  | cons rawLine rest ih =>
      simp only [parseLines, List.map_cons]
      by_cases hskip : isSkipped (stripCr rawLine) = true
      · rw [if_pos hskip, ih, inOrderAfter_skipped hskip,
          List.filterMap_cons_none (settingOf_skipped hskip)]
      · rw [if_neg hskip]
        rw [Bool.not_eq_true] at hskip
        rcases hpart : partition 0x3d (stripCr rawLine) with ⟨key, found, value⟩
        cases found with
        | false =>
            have hfaulty : isFaulty isSetting (stripCr rawLine) = true := by
              simp [isFaulty, settingOf, hskip, hpart]
            have hbad : ¬ InOrderAfter isSetting (raw.map Prod.fst)
                (stripCr rawLine :: rest.map stripCr) := not_inOrderAfter_faulty hfaulty
            simp only [hbad, false_and, reduceCtorEq]
        | true =>
            have hsetting : settingOf (stripCr rawLine) = some (key, value) := by
              simp [settingOf, hskip, hpart]
            by_cases hknown : isSetting key = true
            · have hseen : ∀ k, k ∈ (raw ++ [(key, value)]).map Prod.fst ↔
                  k = key ∨ k ∈ raw.map Prod.fst := by
                intro k
                rw [List.map_append, List.mem_append, or_comm]
                simp
              have hany : raw.any (fun entry => entry.1 == key) = true ↔
                  key ∈ raw.map Prod.fst := by
                simp
              rw [inOrderAfter_setting hsetting hknown hseen,
                List.filterMap_cons_some hsetting]
              simp only [hknown, Bool.true_eq_false, if_false]
              by_cases hdup : raw.any (fun entry => entry.1 == key) = true
              · rw [if_pos hdup]
                simp [hany.mp hdup]
              · rw [if_neg hdup, ih, List.append_assoc, List.singleton_append]
                simp only [hany.not.mp hdup, not_false_eq_true, true_and]
            · rw [Bool.not_eq_true] at hknown
              have hfaulty : isFaulty isSetting (stripCr rawLine) = true := by
                rw [isFaulty_setting hsetting, hknown]
                rfl
              have hbad : ¬ InOrderAfter isSetting (raw.map Prod.fst)
                  (stripCr rawLine :: rest.map stripCr) := not_inOrderAfter_faulty hfaulty
              simp only [hknown, if_true, hbad, false_and, reduceCtorEq]

/-- `parse` succeeds exactly when the lines are in order. -/
theorem parse_isOk_iff (text : PyStr) :
    (∃ r, parse text = .ok r) ↔ InOrder isSetting (configLines text) := by
  simp only [parse, parseLines_ok_iff, List.map_nil, inOrderAfter_nil_iff, configLines]
  exact ⟨fun ⟨_, h, _⟩ => h, fun h => ⟨_, h, rfl⟩⟩

end Config

end SushidaOs
