import SushidaOs.Utf8

/-!
# SushidaOs.Wifi.Types

The connection types and the credential validation of the Wi-Fi setup
backend (`sushida_os/wifi/types.py`).

The four public state strings are the inductive type `ConnectState`.  The
validators encode the strings they measure, so on a lone surrogate they
raise `UnicodeEncodeError` instead of answering; `Except` keeps that
outcome apart from an error message (`some`) and from acceptance (`none`).
-/

namespace SushidaOs

/-- `CONNECT_IDLE`, `CONNECT_WORKING`, `CONNECT_SUCCEEDED`, `CONNECT_FAILED`. -/
inductive ConnectState where
  | idle
  | connecting
  | succeeded
  | failed
  deriving DecidableEq, Repr

namespace ConnectState

/-- The published outcome of an attempt. -/
def ofOutcome (success : Bool) : ConnectState := if success then succeeded else failed

/-- `CONNECT_SUCCEEDED` and `CONNECT_FAILED`. -/
def isTerminal : ConnectState → Bool
  | succeeded | failed => true
  | idle | connecting => false

@[simp] theorem isTerminal_ofOutcome (b : Bool) : (ofOutcome b).isTerminal = true := by
  cases b <;> rfl

@[simp] theorem ofOutcome_ne_connecting (b : Bool) : ofOutcome b ≠ connecting := by
  cases b <;> simp [ofOutcome]

end ConnectState

/-- `CONNECTION_NAME`. -/
def connectionName : PyStr := .lit "sushida-os-wifi"

/-- An `(ssid, password)` pair. -/
structure Credential where
  ssid : PyStr
  password : PyStr
  deriving DecidableEq, Repr

/-! ## credential validation -/

/-- `ord(char) < 32 or ord(char) == 127`. -/
def isControl (c : CodePoint) : Bool := c.val < 32 || c.val = 127

/-- `_validate_ssid`. -/
def validateSsid (ssid : PyStr) : Except PyExc (Option String) :=
  if ssid.isEmpty || PyStr.contains [0xfffd] ssid then .ok (some "SSIDが不正です。")
  else match ssid.encodeUtf8 with
    | .error e => .error e
    | .ok bytes =>
        if 32 < bytes.length then .ok (some "SSIDが不正です。")
        else if ssid.any isControl then .ok (some "制御文字を含むSSIDには対応していません。")
        else .ok none

/-- `_validate_password_shape`. -/
def validatePasswordShape (password : PyStr) : Option String :=
  if password.any fun c => c = 0x00 || c = 0x0a || c = 0x0d then
    some "パスワードに使用できない文字が含まれています。"
  else none

/-- `character in "0123456789abcdefABCDEF"`. -/
def isHexDigit (c : CodePoint) : Bool :=
  (0x30 ≤ c.val && c.val ≤ 0x39) || (0x61 ≤ c.val && c.val ≤ 0x66) ||
    (0x41 ≤ c.val && c.val ≤ 0x46)

/-- `validate_credentials`. -/
def validateCredentials (ssid password : PyStr) : Except PyExc (Option String) :=
  match validateSsid ssid with
  | .error e => .error e
  | .ok (some ssidError) => .ok (some ssidError)
  | .ok none => match validatePasswordShape password with
    | some passwordError => .ok (some passwordError)
    | none => match password.encodeUtf8 with
      | .error e => .error e
      | .ok passwordBytes =>
          let rawPsk := password.length = 64 && password.all isHexDigit
          if !password.isEmpty &&
              !((8 ≤ passwordBytes.length && passwordBytes.length ≤ 63) || rawPsk) then
            .ok (some "Wi-Fiパスワードは8〜63バイト、または64桁の16進数で入力してください。")
          else .ok none

/-! A string that has passed its check can be encoded. -/

theorem encodable_of_validateSsid {ssid : PyStr} (h : validateSsid ssid = .ok none) :
    ssid.Encodable := by
  simp only [validateSsid] at h
  split at h
  · contradiction
  · cases henc : ssid.encodeUtf8 with
    | error e => simp only [henc] at h; contradiction
    | ok bytes => exact PyStr.encodable_of_encodeUtf8 henc

theorem encodable_of_validateCredentials {ssid password : PyStr}
    (h : validateCredentials ssid password = .ok none) : password.Encodable := by
  simp only [validateCredentials] at h
  split at h
  · contradiction
  · simp at h
  · split at h
    · simp at h
    · cases henc : password.encodeUtf8 with
      | error e => simp only [henc] at h; contradiction
      | ok bytes => exact PyStr.encodable_of_encodeUtf8 henc

/-! What else the checks say of the strings they accept. -/

theorem length_of_validateSsid {ssid : PyStr} (h : validateSsid ssid = .ok none) :
    ssid.utf8Length ≤ 32 := by
  simp only [validateSsid] at h
  split at h
  · contradiction
  · cases henc : ssid.encodeUtf8 with
    | error e => simp only [henc] at h; contradiction
    | ok bytes =>
        simp only [henc] at h
        split at h
        · contradiction
        · rw [PyStr.utf8Length_of_encodeUtf8 henc]
          omega

theorem validateSsid_of_validateCredentials {ssid password : PyStr}
    (h : validateCredentials ssid password = .ok none) : validateSsid ssid = .ok none := by
  simp only [validateCredentials] at h
  split at h
  · contradiction
  · simp at h
  · next hssid => exact hssid

theorem shape_of_validateCredentials {ssid password : PyStr}
    (h : validateCredentials ssid password = .ok none) :
    validatePasswordShape password = none := by
  simp only [validateCredentials, validateSsid_of_validateCredentials h] at h
  split at h
  · simp at h
  · next hshape => exact hshape

theorem isHexDigit_ascii {c : CodePoint} (h : isHexDigit c = true) : c.val < 0x80 := by
  simp only [isHexDigit, Bool.or_eq_true, Bool.and_eq_true, decide_eq_true_eq] at h
  omega

/-- An accepted password has at most 64 bytes. -/
theorem length_of_validateCredentials {ssid password : PyStr}
    (h : validateCredentials ssid password = .ok none) : password.utf8Length ≤ 64 := by
  simp only [validateCredentials, validateSsid_of_validateCredentials h,
    shape_of_validateCredentials h] at h
  cases henc : password.encodeUtf8 with
  | error e => simp only [henc] at h; contradiction
  | ok bytes =>
      simp only [henc] at h
      split at h
      · simp at h
      · next hlen =>
          have hbytes := PyStr.utf8Length_of_encodeUtf8 henc
          simp only [Bool.and_eq_true, Bool.not_eq_true', not_and, Bool.not_eq_false,
            Bool.or_eq_true, decide_eq_true_eq] at hlen
          cases password with
          | nil => simp
          | cons c cs =>
              cases hlen rfl with
              | inl hshort => omega
              | inr hraw =>
                  have hhex := List.all_eq_true.mp hraw.2
                  rw [PyStr.utf8Length_of_ascii fun d hd => isHexDigit_ascii (hhex d hd)]
                  omega

end SushidaOs
