import Mathlib.Algebra.Order.Ring.Int
import SushidaOs.ConfigText

/-!
# SushidaOs.Runtime.InputWatch

The brightness half of the hotkey service (`sushida-input-watch`): the boot
brightness from `config.env`, and the steps of the two brightness keys.

A backlight is a directory with the files `brightness` and `max_brightness`;
`none` in the place of a write is the answer `False`.
-/

namespace SushidaOs

open PyStr

namespace InputWatch

/-- `BRIGHTNESS_STEP_PERCENT` and `BRIGHTNESS_FLOOR_PERCENT`. -/
def brightnessStepPercent : Int := 10
def brightnessFloorPercent : Int := 5

/-! ## boot brightness -/

/-- The exceptions of `configured_brightness_percent`. -/
inductive BootExc where
  | config (e : Config.ConfigExc)
  | typeError
  | valueError
  deriving DecidableEq, Repr

def brightnessKey : PyStr := lit "SCREEN_BRIGHTNESS_PERCENT"

/-- `int(value)`. -/
def intOf (U : UnicodeData) : Config.Value → Except BootExc Int
  | .unset => .error .typeError
  | .int n => .ok n
  | .url s =>
      match toInt U s with
      | .ok n => .ok n
      | .error _ => .error .valueError

/-- `config.SETTINGS["SCREEN_BRIGHTNESS_PERCENT"].default`. -/
def defaultBrightness : Config.Value :=
  match Config.settings.find? fun setting => setting.key == brightnessKey with
  | some setting => (setting.default.map Config.Value.int).getD .unset
  | none => .unset

/-- `configured_brightness_percent`. -/
def configuredBrightnessPercent (U : UnicodeData) (path : PyStr) (file : Config.FileRead) :
    Except BootExc Int :=
  match Config.load U brightnessKey path file with
  | .error (.configError _) => intOf U defaultBrightness
  | .error e => .error (.config e)
  | .ok .unset => intOf U defaultBrightness
  | .ok value => intOf U value

/-- A well-formed file that sets the brightness to more digits than `int`
converts. -/
def TooManyDigits (file : Config.FileRead) : Prop :=
  ∃ bytes value, file = .data bytes ∧
    Config.InOrder Config.isSetting (Config.configLines (Utf8.decodeEscape bytes)) ∧
    (∃ line ∈ Config.configLines (Utf8.decodeEscape bytes),
      Config.Sets line brightnessKey value) ∧
    Config.isAsciiDigits value = true ∧ intMaxStrDigits < value.length

theorem digits_of_isAsciiDigits {text : PyStr} (h : Config.isAsciiDigits text = true) :
    ∃ ds, (∀ d ∈ ds, d < 10) ∧ ds ≠ [] ∧ text = ds.map digitChar := by
  simp only [Config.isAsciiDigits, Bool.and_eq_true, Bool.not_eq_true', List.isEmpty_eq_false_iff,
    List.all_eq_true, decide_eq_true_eq] at h
  obtain ⟨hne, hall⟩ := h
  refine ⟨text.map fun c => c.val - 0x30, ?_, by simpa using hne, ?_⟩
  · intro d hd
    obtain ⟨c, hc, rfl⟩ := List.mem_map.mp hd
    have hrange := hall c hc
    omega
  · have hinverse : ∀ c ∈ text, digitChar (c.val - 0x30) = c := by
      intro c hc
      have hrange := hall c hc
      apply Fin.ext
      rw [digitChar_val (by omega)]
      omega
    rw [List.map_map]
    exact (List.map_id text).symm.trans
      (List.map_congr_left fun c hc => (hinverse c hc).symm)

/-- `SETTINGS["SCREEN_BRIGHTNESS_PERCENT"]`. -/
def brightnessSetting : Config.Setting where
  key := brightnessKey
  minimum := 5
  maximum := 100
  default := some 80

theorem find_brightness :
    Config.settings.find? (fun setting => setting.key == brightnessKey) =
      some brightnessSetting := by
  decide

@[simp] theorem brightnessSetting_url : brightnessSetting.url = false := rfl

@[simp] theorem brightnessSetting_optional : brightnessSetting.optional = false := rfl

section Value

variable (U : UnicodeData) {raw : List (PyStr × PyStr)} {text : PyStr}

/-- Without a setting the default is taken. -/
theorem value_missing (h : raw.lookup brightnessKey = none) :
    Config.value U raw brightnessKey = .ok (.int 80) := by
  simp only [Config.value, find_brightness, h]
  rfl

/-- What is no number is a `ConfigError`. -/
theorem value_malformed (h : raw.lookup brightnessKey = some text)
    (hdigits : Config.isAsciiDigits text = false) :
    ∃ message, Config.value U raw brightnessKey = .error (.configError message) := by
  simp only [Config.value, find_brightness, h, hdigits, brightnessSetting_url,
    brightnessSetting_optional, Bool.and_false, Bool.false_eq_true, if_false, if_true]
  exact ⟨_, rfl⟩

/-- More digits than `int` reads are a `ValueError`. -/
theorem value_tooLong (h : raw.lookup brightnessKey = some text)
    (hdigits : Config.isAsciiDigits text = true) (hlong : intMaxStrDigits < text.length) :
    Config.value U raw brightnessKey = .error .valueError := by
  obtain ⟨ds, hds, hne, rfl⟩ := digits_of_isAsciiDigits hdigits
  rw [List.length_map] at hlong
  have hint := toInt_digits U hds hne
  rw [if_pos hlong] at hint
  simp only [Config.value, find_brightness, h, hdigits, hint, brightnessSetting_url,
    brightnessSetting_optional, Bool.and_false, Bool.false_eq_true, Bool.true_eq_false, if_false]

/-- A number is taken where it is in range. -/
theorem value_number (h : raw.lookup brightnessKey = some text)
    (hdigits : Config.isAsciiDigits text = true) (hshort : text.length ≤ intMaxStrDigits) :
    (∃ n : Int, Config.value U raw brightnessKey = .ok (.int n) ∧ 5 ≤ n ∧ n ≤ 100) ∨
      ∃ message, Config.value U raw brightnessKey = .error (.configError message) := by
  obtain ⟨ds, hds, hne, rfl⟩ := digits_of_isAsciiDigits hdigits
  rw [List.length_map] at hshort
  have hint := toInt_digits U hds hne
  rw [if_neg (by omega)] at hint
  simp only [Config.value, find_brightness, h, hdigits, hint, brightnessSetting_url,
    brightnessSetting_optional, Bool.and_false, Bool.false_eq_true, Bool.true_eq_false, if_false]
  by_cases hrange : (5 : Int) ≤ (ds.foldl (fun n d => 10 * n + d) 0 : Nat) ∧
      ((ds.foldl (fun n d => 10 * n + d) 0 : Nat) : Int) ≤ 100
  · exact .inl ⟨_, if_pos hrange, hrange⟩
  · exact .inr ⟨_, if_neg hrange⟩

end Value

theorem intOf_default (U : UnicodeData) : intOf U defaultBrightness = .ok 80 := by
  rw [defaultBrightness, find_brightness]
  rfl

/-- Without a number in the file the default is taken. -/
theorem configured_of_configError {U : UnicodeData} {path message : PyStr}
    {file : Config.FileRead}
    (h : Config.load U brightnessKey path file = .error (.configError message)) :
    configuredBrightnessPercent U path file = .ok 80 := by
  rw [configuredBrightnessPercent, h]
  exact intOf_default U

/-- **Boot brightness**: the percentage is known and in range exactly when the file
does not set it to more digits than `int` converts. -/
theorem configuredBrightnessPercent_ok_iff (U : UnicodeData) (path : PyStr)
    (file : Config.FileRead) :
    (∃ n, configuredBrightnessPercent U path file = .ok n ∧ 5 ≤ n ∧ n ≤ 100) ↔
      ¬ TooManyDigits file := by
  have hdefault : ∀ message, Config.load U brightnessKey path file =
      .error (.configError message) →
      ∃ n, configuredBrightnessPercent U path file = .ok n ∧ 5 ≤ n ∧ n ≤ 100 :=
    fun _ h => ⟨80, configured_of_configError h, by decide, by decide⟩
  cases file with
  | missing => exact iff_of_true (hdefault _ rfl) (by rintro ⟨_, _, hfile, -⟩; cases hfile)
  | unreadable => exact iff_of_true (hdefault _ rfl) (by rintro ⟨_, _, hfile, -⟩; cases hfile)
  | data bytes =>
      cases hparse : Config.parse (Utf8.decodeEscape bytes) with
      | error e =>
          obtain ⟨message, rfl⟩ := Config.parseLines_error hparse
          have hload : Config.load U brightnessKey path (.data bytes) =
              .error (.configError message) := by
            rw [Config.load, Config.read, hparse]
          refine iff_of_true (hdefault _ hload) ?_
          rintro ⟨bytes', value, hfile, horder, -⟩
          rw [← Config.FileRead.data.inj hfile, ← Config.parse_isOk_iff, hparse] at horder
          obtain ⟨r, hr⟩ := horder
          contradiction
      | ok raw =>
          have hload : Config.load U brightnessKey path (.data bytes) =
              Config.value U raw brightnessKey := by
            rw [Config.load, Config.read, hparse]
          have hlookup := (Config.parse_reads hparse).settings brightnessKey
          by_cases hlong : ∃ text, raw.lookup brightnessKey = some text ∧
              Config.isAsciiDigits text = true ∧ intMaxStrDigits < text.length
          · obtain ⟨text, htext, hdigits, hlen⟩ := hlong
            have herror : configuredBrightnessPercent U path (.data bytes) =
                .error (.config .valueError) := by
              rw [configuredBrightnessPercent, hload, value_tooLong U htext hdigits hlen]
            refine iff_of_false ?_ fun hnot => hnot ⟨bytes, text, rfl, ?_, ?_, hdigits, hlen⟩
            · rintro ⟨n, hn, -⟩
              rw [herror] at hn
              contradiction
            · exact (Config.parse_isOk_iff _).mp ⟨raw, hparse⟩
            · exact (hlookup text).mp htext
          · refine iff_of_true ?_ ?_
            · cases htext : raw.lookup brightnessKey with
              | none =>
                  refine ⟨80, ?_, by decide, by decide⟩
                  rw [configuredBrightnessPercent, hload, value_missing U htext]
                  rfl
              | some text =>
                  cases hdigits : Config.isAsciiDigits text with
                  | false =>
                      obtain ⟨message, hvalue⟩ := value_malformed U htext hdigits
                      exact hdefault message (hload.trans hvalue)
                  | true =>
                      have hshort : text.length ≤ intMaxStrDigits :=
                        Nat.le_of_not_lt fun hlen => hlong ⟨text, htext, hdigits, hlen⟩
                      rcases value_number U htext hdigits hshort with
                        ⟨n, hvalue, hlo, hhi⟩ | ⟨message, hvalue⟩
                      · refine ⟨n, ?_, hlo, hhi⟩
                        rw [configuredBrightnessPercent, hload, hvalue]
                        rfl
                      · exact hdefault message (hload.trans hvalue)
            · rintro ⟨bytes', value, hfile, -, hsets, hdigits, hlen⟩
              rw [← Config.FileRead.data.inj hfile] at hsets
              exact hlong ⟨value, (hlookup value).mpr hsets, hdigits, hlen⟩

/-- A file that sets the brightness. -/
def brightnessFile (value : PyStr) : Config.Document where
  lines := [(.setting brightnessKey value, .lf)]
  last := none

/-- A brightness of digits is read as it was written. -/
theorem parse_brightnessFile {value : PyStr} (h : ∀ c ∈ value, 0x30 ≤ c.val ∧ c.val ≤ 0x39) :
    Config.parse (Utf8.decodeEscape (Utf8.asciiBytes (brightnessFile value).text)) =
      .ok [(brightnessKey, value)] := by
  have htext : (brightnessFile value).text = brightnessKey ++ 0x3d :: value ++ [0x0a] := by
    simp [brightnessFile, Config.Document.text, Config.Entry.text, Config.LineEnd.cr]
  have hkey : ∀ c ∈ brightnessKey, c.val < 0x80 := forall_of_all (by decide)
  have hascii : ∀ c ∈ (brightnessFile value).text, c.val < 0x80 := by
    intro c hc
    simp only [htext, List.mem_append, List.mem_cons, List.not_mem_nil, or_false] at hc
    rcases hc with (hc | rfl | hc) | rfl
    · exact hkey c hc
    · decide
    · have hrange := h c hc
      omega
    · decide
  have hwritable : (brightnessFile value).Writable := by
    refine ⟨?_, by simp [brightnessFile, Config.Document.pairs, Config.Document.entries,
      Config.Entry.pair]⟩
    simp only [brightnessFile, Config.Document.entries, List.map_cons, List.map_nil,
      Option.toList_none, List.append_nil, List.forall_mem_cons, Config.Entry.Writable]
    refine ⟨⟨by decide, fun hlf => ?_, fun hlast => ?_⟩, by simp⟩
    · exact absurd (h _ hlf).1 (by decide)
    · exact absurd (h _ (List.mem_of_getLast? hlast)).1 (by decide)
  rw [(Utf8.decodeEscape_eq_iff hascii).mpr rfl, Config.parse_document hwritable]
  rfl

/-- So many zeros. -/
def zeros (n : Nat) : PyStr := List.replicate n 0x30

theorem zeros_digits (n : Nat) : ∀ c ∈ zeros n, 0x30 ≤ c.val ∧ c.val ≤ 0x39 := by
  intro c hc
  rw [List.eq_of_mem_replicate hc]
  decide

theorem isAsciiDigits_zeros {n : Nat} (h : 0 < n) : Config.isAsciiDigits (zeros n) = true := by
  have hne : zeros n ≠ [] := List.ne_nil_of_length_pos (by rwa [zeros, List.length_replicate])
  simp only [Config.isAsciiDigits, Bool.and_eq_true, Bool.not_eq_true',
    List.isEmpty_eq_false_iff, List.all_eq_true, decide_eq_true_eq]
  exact ⟨hne, zeros_digits n⟩

/-- A brightness of more zeros than `int` reads. -/
theorem configuredBrightnessPercent_zeros {n : Nat} (h : intMaxStrDigits < n) :
    configuredBrightnessPercent .ascii []
        (.data (Utf8.asciiBytes (brightnessFile (zeros n)).text)) =
      .error (.config .valueError) := by
  have hlookup : List.lookup brightnessKey [(brightnessKey, zeros n)] = some (zeros n) :=
    List.lookup_cons_self
  have hlong : intMaxStrDigits < (zeros n).length := by rwa [zeros, List.length_replicate]
  have hvalue := value_tooLong .ascii hlookup (isAsciiDigits_zeros (Nat.zero_lt_of_lt h)) hlong
  rw [configuredBrightnessPercent, Config.load, Config.read, parse_brightnessFile (zeros_digits n)]
  simp only [hvalue]

/-- A brightness of 4301 zeros stops the service. -/
theorem zeros_raise :
    configuredBrightnessPercent .ascii []
        (.data (Utf8.asciiBytes (brightnessFile (zeros 4301)).text)) =
      .error (.config .valueError) ∧
      ¬ ∃ n, configuredBrightnessPercent .ascii []
          (.data (Utf8.asciiBytes (brightnessFile (zeros 4301)).text)) = .ok n ∧
        5 ≤ n ∧ n ≤ 100 := by
  have hraises := configuredBrightnessPercent_zeros (Nat.lt_succ_self 4300)
  refine ⟨hraises, ?_⟩
  rintro ⟨n, hn, -⟩
  have hclash := hraises.symm.trans hn
  cases hclash

/-! ## the backlight -/

/-- A file of `sysfs`: `none` when it cannot be read or decoded. -/
structure SysFile where
  isFile : Bool
  text : Option PyStr
  deriving DecidableEq, Repr

/-- An entry of `/sys/class/backlight`. -/
structure Backlight where
  name : PyStr
  brightness : SysFile
  maxBrightness : SysFile
  /-- `brightness` can be written. -/
  writable : Bool
  deriving DecidableEq, Repr

/-- A write to `brightness`. -/
structure BrightnessWrite where
  device : PyStr
  raw : Int
  deriving DecidableEq, Repr

def BrightnessWrite.text (w : BrightnessWrite) : PyStr := ofInt w.raw ++ [0x0a]

/-- The least value a write leaves. -/
def floorRaw (maxRaw : Int) : Int := max 1 (maxRaw * brightnessFloorPercent / 100)

/-- `clamp_brightness_raw`. -/
def clampBrightnessRaw (percent maxRaw : Int) : Int :=
  let raw := maxRaw * percent / 100
  max (floorRaw maxRaw) (min maxRaw raw)

/-- `backlight_device`; `none` when the directory cannot be listed. -/
def backlightDevice (root : Option (List Backlight)) : Option Backlight :=
  ((root.getD []).mergeSort fun a b => !lt b.name a.name).find? fun entry =>
    entry.brightness.isFile && entry.maxBrightness.isFile

/-- `_read_raw`. -/
def readRaw (U : UnicodeData) (file : SysFile) : Option Int :=
  file.text.bind fun text => (toInt U (strip text)).toOption

/-- `_backlight`. -/
def backlight (U : UnicodeData) (root : Option (List Backlight)) : Option (Backlight × Int) :=
  match backlightDevice root with
  | none => none
  | some device =>
      match readRaw U device.maxBrightness with
      | none => none
      | some maxRaw => if maxRaw ≤ 0 then none else some (device, maxRaw)

/-- `_write_brightness`; `none` stands for the answer `False`. -/
def writeBrightness (device : Backlight) (maxRaw percent : Int) : Option BrightnessWrite :=
  if device.writable then
    some { device := device.name, raw := clampBrightnessRaw percent maxRaw }
  else none

/-- `set_brightness_percent`. -/
def setBrightnessPercent (U : UnicodeData) (root : Option (List Backlight)) (percent : Int) :
    Option BrightnessWrite :=
  match backlight U root with
  | none => none
  | some (device, maxRaw) => writeBrightness device maxRaw percent

/-- The percentage `step_brightness` writes. -/
def stepPercent (current maxRaw direction : Int) : Int :=
  let percent := current * 100 / maxRaw
  let percent := percent + direction * brightnessStepPercent
  max brightnessFloorPercent (min 100 percent)

/-- `step_brightness`. -/
def stepBrightness (U : UnicodeData) (root : Option (List Backlight)) (direction : Int) :
    Option BrightnessWrite :=
  match backlight U root with
  | none => none
  | some (device, maxRaw) =>
      match readRaw U device.brightness with
      | none => none
      | some current => writeBrightness device maxRaw (stepPercent current maxRaw direction)

/-! ## the two keys -/

/-- A brighter panel, up to the maximum. -/
def StepsUp (maxRaw current raw : Int) : Prop :=
  if current = maxRaw then raw = maxRaw else current < raw ∧ raw ≤ maxRaw

/-- A darker panel, down to the floor. -/
def StepsDown (maxRaw current raw : Int) : Prop :=
  if current ≤ floorRaw maxRaw then raw = floorRaw maxRaw
  else floorRaw maxRaw ≤ raw ∧ raw < current

section Keys

variable {maxRaw current percent : Int}

/-- The floor is not above the maximum. -/
theorem floorRaw_le (hmax : 1 ≤ maxRaw) : floorRaw maxRaw ≤ maxRaw := by
  simp only [floorRaw, brightnessFloorPercent]
  omega

/-- Whatever is asked for, the panel stays between the floor and the maximum. -/
theorem clampBrightnessRaw_bounds (hmax : 1 ≤ maxRaw) (percent : Int) :
    floorRaw maxRaw ≤ clampBrightnessRaw percent maxRaw ∧
      clampBrightnessRaw percent maxRaw ≤ maxRaw := by
  have hfloor := floorRaw_le hmax
  exact ⟨le_max_left _ _, max_le hfloor (min_le_left _ _)⟩

/-- What the two roundings lose of the percentage `p` that is read back. -/
theorem percent_bounds (hmax : 1 ≤ maxRaw) (hlo : 0 ≤ current) (hhi : current ≤ maxRaw) :
    0 ≤ current * 100 / maxRaw ∧ current * 100 / maxRaw ≤ 100 ∧
      maxRaw * (current * 100 / maxRaw) ≤ current * 100 ∧
      current * 100 < maxRaw * (current * 100 / maxRaw) + maxRaw := by
  have hpos : 0 < maxRaw := by omega
  refine ⟨Int.ediv_nonneg (by omega) (by omega), ?_, Int.mul_ediv_self_le (by omega),
    Int.lt_mul_ediv_self_add hpos⟩
  calc current * 100 / maxRaw ≤ maxRaw * 100 / maxRaw :=
        Int.ediv_le_ediv hpos (by omega)
    _ = 100 := Int.mul_ediv_cancel_left 100 (by omega)

/-- The step of the raw value up. -/
theorem stepPercent_up (hmax : 1 ≤ maxRaw) (hlo : 0 ≤ current) (hhi : current ≤ maxRaw) :
    stepPercent current maxRaw 1 = min 100 (current * 100 / maxRaw + 10) := by
  obtain ⟨hp, -, -, -⟩ := percent_bounds hmax hlo hhi
  simp only [stepPercent, brightnessStepPercent, brightnessFloorPercent]
  omega

/-- With eleven levels a step up is more than the roundings lose. -/
theorem lt_clamp_up (hmax : 11 ≤ maxRaw) (hlo : 0 ≤ current) (hhi : current < maxRaw) :
    current < clampBrightnessRaw (stepPercent current maxRaw 1) maxRaw := by
  obtain ⟨hp, -, hle, hlt⟩ := percent_bounds (by omega : 1 ≤ maxRaw) hlo hhi.le
  rw [stepPercent_up (by omega) hlo hhi.le, clampBrightnessRaw]
  refine lt_max_of_lt_right (lt_min hhi ?_)
  rcases le_total (current * 100 / maxRaw + 10) 100 with hcap | hcap
  · rw [min_eq_right hcap, mul_add]
    omega
  · rw [min_eq_left hcap, Int.mul_ediv_cancel _ (by decide)]
    exact hhi

/-- **Up**: the panel gets brighter, but not on a panel of fewer than ten levels
that is neither dark nor at its maximum. -/
theorem stepsUp_iff (hmax : 1 ≤ maxRaw) (hlo : 0 ≤ current) (hhi : current ≤ maxRaw) :
    StepsUp maxRaw current (clampBrightnessRaw (stepPercent current maxRaw 1) maxRaw) ↔
      10 ≤ maxRaw ∨ current = 0 ∨ current = maxRaw := by
  obtain ⟨hfloor, hle⟩ := clampBrightnessRaw_bounds hmax (stepPercent current maxRaw 1)
  rw [StepsUp]
  by_cases htop : current = maxRaw
  · have hpercent : stepPercent current maxRaw 1 = 100 := by
      rw [stepPercent_up hmax hlo hhi, htop, Int.mul_ediv_cancel_left 100 (by omega)]
      decide
    rw [if_pos htop, hpercent, clampBrightnessRaw, Int.mul_ediv_cancel _ (by decide), min_self,
      max_eq_right (floorRaw_le hmax)]
    exact iff_of_true rfl (.inr (.inr htop))
  by_cases hmany : 11 ≤ maxRaw
  · have hlt := lt_clamp_up hmany hlo (by omega)
    rw [if_neg htop]
    exact iff_of_true ⟨hlt, hle⟩ (.inl (by omega))
  · rw [if_neg htop, clampBrightnessRaw, stepPercent_up hmax hlo hhi]
    simp only [floorRaw, brightnessFloorPercent]
    interval_cases maxRaw <;> omega

/-- A step down lowers the raw value before it is clamped, unless it asks for
the floor. -/
theorem raw_down (hmax : 1 ≤ maxRaw) (hlo : 0 ≤ current) (hhi : current ≤ maxRaw) :
    maxRaw * stepPercent current maxRaw (-1) / 100 ≤ floorRaw maxRaw ∨
      maxRaw * stepPercent current maxRaw (-1) / 100 < current := by
  obtain ⟨-, hp, hle, -⟩ := percent_bounds hmax hlo hhi
  have hstep : stepPercent current maxRaw (-1) =
      max brightnessFloorPercent (current * 100 / maxRaw - 10) := by
    simp only [stepPercent, brightnessStepPercent]
    omega
  rw [hstep]
  rcases le_total (current * 100 / maxRaw - 10) brightnessFloorPercent with hcap | hcap
  · rw [max_eq_left hcap]
    exact .inl (le_max_right _ _)
  · rw [max_eq_right hcap, mul_sub]
    right
    omega

/-- **Down**: the panel gets darker until it is at the floor. -/
theorem stepsDown (hmax : 1 ≤ maxRaw) (hlo : 0 ≤ current) (hhi : current ≤ maxRaw) :
    StepsDown maxRaw current (clampBrightnessRaw (stepPercent current maxRaw (-1)) maxRaw) := by
  have hraw := raw_down hmax hlo hhi
  have hfloor := (clampBrightnessRaw_bounds hmax (stepPercent current maxRaw (-1))).1
  rw [StepsDown]
  rw [clampBrightnessRaw] at hfloor ⊢
  split <;> omega

end Keys

/-- A backlight that is used has a maximum of 1 at least. -/
theorem backlight_pos {U : UnicodeData} {root : Option (List Backlight)} {device : Backlight}
    {maxRaw : Int} (h : backlight U root = some (device, maxRaw)) : 1 ≤ maxRaw := by
  rw [backlight] at h
  split at h
  · contradiction
  · split at h
    · contradiction
    · split at h
      · contradiction
      · next hpos =>
          have hraw := congrArg Prod.snd (Option.some.inj h)
          simp only at hraw
          omega

/-- **A key press moves the panel**: on the backlight that is found, the two keys do
what they say exactly with ten levels, on a dark panel, and on one at its
maximum. -/
theorem keys_move_iff {U : UnicodeData} {root : Option (List Backlight)} {device : Backlight}
    {maxRaw current : Int} (hdevice : backlight U root = some (device, maxRaw))
    (hcurrent : readRaw U device.brightness = some current) (hlo : 0 ≤ current)
    (hhi : current ≤ maxRaw) (hwritable : device.writable = true) :
    ((∃ raw, stepBrightness U root 1 = some { device := device.name, raw := raw } ∧
        StepsUp maxRaw current raw) ∧
      ∃ raw, stepBrightness U root (-1) = some { device := device.name, raw := raw } ∧
        StepsDown maxRaw current raw) ↔
      10 ≤ maxRaw ∨ current = 0 ∨ current = maxRaw := by
  have hmax := backlight_pos hdevice
  have hwrites : ∀ direction raw, stepBrightness U root direction =
      some { device := device.name, raw := raw } ↔
        raw = clampBrightnessRaw (stepPercent current maxRaw direction) maxRaw := by
    intro direction raw
    simp only [stepBrightness, hdevice, hcurrent, writeBrightness, hwritable, if_true,
      Option.some.injEq, BrightnessWrite.mk.injEq, true_and, eq_comm]
  simp only [hwrites, exists_eq_left, stepsUp_iff hmax hlo hhi, stepsDown hmax hlo hhi, and_true]

/-- A panel at a level. -/
def panel (level levels : Int) : Backlight where
  name := lit "intel_backlight"
  brightness := { isFile := true, text := some (ofInt level ++ [0x0a]) }
  maxBrightness := { isFile := true, text := some (ofInt levels ++ [0x0a]) }
  writable := true

theorem middle_panel_moves :
    (∃ raw, stepBrightness .ascii (some [panel 500 1000]) 1 =
        some { device := (panel 500 1000).name, raw := raw } ∧ StepsUp 1000 500 raw) ∧
      ∃ raw, stepBrightness .ascii (some [panel 500 1000]) (-1) =
        some { device := (panel 500 1000).name, raw := raw } ∧ StepsDown 1000 500 raw :=
  (@keys_move_iff .ascii (some [panel 500 1000]) _ _ _ (by decide +kernel)
    (by decide +kernel) (by decide) (by decide) rfl).mpr (.inl (by decide))

/-- On the first of five levels the key for more light writes the value that is
there. -/
theorem coarse_panel_stays :
    stepBrightness .ascii (some [panel 1 5]) 1 = some { device := (panel 1 5).name, raw := 1 } ∧
      ¬ ∃ raw, stepBrightness .ascii (some [panel 1 5]) 1 =
        some { device := (panel 1 5).name, raw := raw } ∧ StepsUp 5 1 raw := by
  have hwrite : stepBrightness .ascii (some [panel 1 5]) 1 =
      some { device := (panel 1 5).name, raw := 1 } := by decide +kernel
  refine ⟨hwrite, ?_⟩
  rintro ⟨raw, hraw, hsteps⟩
  rw [hwrite] at hraw
  have heq : (1 : Int) = raw := congrArg BrightnessWrite.raw (Option.some.inj hraw)
  rw [← heq] at hsteps
  simp [StepsUp] at hsteps

end InputWatch

end SushidaOs
