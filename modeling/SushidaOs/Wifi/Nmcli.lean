import SushidaOs.Wifi.Storage

/-!
# SushidaOs.Wifi.Nmcli

The staged connect chain `connect_wifi` (`sushida_os/wifi/nmcli.py`) with
everything it calls, as scripts over the journal of `SushidaOs.Wifi.World`.

A raised exception is `Except.error` in the answer of a script.  The lock
around `_connect_wifi` is left out: the worker thread is the only caller, and
one call is what is described here.
-/

namespace SushidaOs

/-! ## diagnostics -/

/-- `_log_stage`. -/
def logStage (stage : String) (exitCode : Int) (reason : Option Int) : Script Entry Unit :=
  let numericReason := reason.getD 0
  Script.enter (.log s!"wifi-setup: stage={stage} nmcli_exit={exitCode} reason={numericReason}")

/-- `fields[1] in ("wifi", "802-11-wireless")`. -/
def isWifiType (type : PyStr) : Bool := type = .lit "wifi" || type = .lit "802-11-wireless"

/-- The first loop of `_wifi_reason`. -/
def wifiDeviceName (stdout : PyStr) : Option PyStr :=
  stdout.splitlines.findSome? fun line =>
    match splitEscaped line with
    | [device, type] => if isWifiType type then some device else none
    | _ => none

/-- The group of `re.search(r"GENERAL\.REASON:(\d+)", line)`: the digits after
the first occurrence of the label that has any. -/
def reasonDigits (U : UnicodeData) : PyStr → Option PyStr
  | [] => none
  | c :: cs =>
      let label := PyStr.lit "GENERAL.REASON:"
      let digits := if label.isPrefixOf (c :: cs) then
        ((c :: cs).drop label.length).takeWhile fun d => (PyStr.digit U d).isSome else []
      if digits.isEmpty then reasonDigits U cs else some digits

/-- The second loop of `_wifi_reason`; `int` may raise the `ValueError` that is
caught there. -/
def reasonOfDetails (U : UnicodeData) (stdout : PyStr) : Option Int :=
  match stdout.splitlines.findSome? (reasonDigits U) with
  | none => none
  | some digits => (digits.toInt U).toOption

/-- `_wifi_reason`. -/
def wifiReason (E : Env) : Script Entry (Option Int) := do
  match ← E.runNmcli .deviceTypes with
  | .timeoutExpired | .osError => pure none
  | .completed returncode devices =>
      if returncode ≠ 0 then pure none
      else match wifiDeviceName devices with
        | none => pure none
        | some deviceName =>
            if deviceName.isEmpty then pure none
            -- an argument with a NUL is refused with the ValueError caught here
            else if deviceName.any (· = 0) then pure none
            else match ← E.runNmcli (.deviceReason deviceName) with
              | .timeoutExpired | .osError => pure none
              | .completed returncode details =>
                  if returncode ≠ 0 then pure none
                  else pure (reasonOfDetails E.unicode details)

/-- `_failure_message`. -/
def failureMessage (exitCode : Int) (reason : Option Int) : String :=
  if exitCode = 3 then
    "Wi-Fi接続がタイムアウトしました。しばらく待ってから再試行してください。"
  else if exitCode = 8 then
    "NetworkManagerが停止しています。管理者に状態を確認してもらってください。"
  else if reason ∈ [some 5, some 15, some 16, some 17] then
    "IPアドレスを取得できませんでした。アクセスポイントのDHCP設定を確認してください。"
  else if reason = some 7 then
    "接続情報を提供できない内部構成エラーです。もう一度接続を試してください。"
  else if reason ∈ [some 8, some 9, some 10, some 11] then
    "認証に失敗しました。パスワードまたはアクセスポイント設定を確認してください。"
  else if reason = some 35 then
    "Wi-Fiファームウェアが不足しています。管理者に確認してください。"
  else if reason = some 53 then
    "SSIDが見つかりません。再スキャンして選び直してください。"
  else "Wi-Fi接続に失敗しました。アクセスポイント設定を確認してください。"

/-! ## the stages -/

/-- `_run_nmcli_stage`; `none` is success. -/
def runNmcliStage (E : Env) (stage : String) (c : Command) : Script Entry (Option String) := do
  match ← E.runNmcli c with
  | .timeoutExpired =>
      logStage stage 3 none
      pure (some (failureMessage 3 none))
  | .osError =>
      logStage stage 8 none
      pure (some (failureMessage 8 none))
  | .completed returncode _ =>
      if returncode = 0 then pure none
      else
        let reason ← wifiReason E
        logStage stage returncode reason
        pure (some (failureMessage returncode reason))

/-- No line of the answer to `profileNames` is the profile's name. -/
def Report.absent : Report → Bool
  | .completed returncode stdout =>
      returncode = 0 && !stdout.splitlines.any fun line => splitEscaped line = [connectionName]
  | _ => false

/-- `_profile_exists`. -/
def profileExists (E : Env) : Script Entry (Option Bool) := do
  match ← E.runNmcli .profileNames with
  | .timeoutExpired | .osError => pure none
  | .completed returncode stdout =>
      if returncode ≠ 0 then pure none
      else pure (some (stdout.splitlines.any fun line => splitEscaped line = [connectionName]))

/-- The end of `_delete_old_profile` after a delete that exited with another
code than zero. -/
def deleteRefused (E : Env) (returncode : Int) : Script Entry (Option String) := do
  match ← profileExists E with
  | some false => pure none
  | _ =>
      let reason ← wifiReason E
      logStage "profile-delete" returncode reason
      pure (some (failureMessage returncode reason))

/-- `_delete_old_profile`. -/
def deleteOldProfile (E : Env) : Script Entry (Option String) := do
  match ← E.runNmcli .deleteProfile with
  | .timeoutExpired =>
      logStage "profile-delete" 3 none
      pure (some (failureMessage 3 none))
  | .osError =>
      logStage "profile-delete" 8 none
      pure (some (failureMessage 8 none))
  | .completed returncode _ =>
      if returncode = 0 then pure none else deleteRefused E returncode

/-- `_cleanup_profile`. -/
def cleanupProfile (E : Env) : Script Entry Unit := do
  match ← E.runNmcli .deleteProfile with
  | .timeoutExpired => logStage "profile-cleanup" 3 none
  | .osError => logStage "profile-cleanup" 8 none
  | .completed returncode _ =>
      if returncode = 0 then pure ()
      else match ← profileExists E with
        | some false => pure ()
        | _ =>
            let reason ← wifiReason E
            logStage "profile-cleanup" returncode reason

/-- `values.get(key)` in `_verify_autoconnect`: the last line with the key wins. -/
def fieldValue (key stdout : PyStr) : Option PyStr :=
  stdout.splitlines.reverse.findSome? fun line =>
    match line.partition 0x3a with
    | (k, true, value) => if k = key then some value.strip else none
    | (_, false, _) => none

/-- `values.get("connection.autoconnect") == "yes"`. -/
def autoconnectSet (stdout : PyStr) : Bool :=
  fieldValue (.lit "connection.autoconnect") stdout = some (.lit "yes")

/-- `values.get("802-11-wireless-security.psk-flags") == "0"`. -/
def pskKept (stdout : PyStr) : Bool :=
  fieldValue (.lit "802-11-wireless-security.psk-flags") stdout = some (.lit "0")

/-- `_verify_autoconnect`. -/
def verifyAutoconnect (E : Env) (mode : SecurityMode) : Script Entry (Option String) := do
  match ← E.runNmcli (.profileFields mode) with
  | .timeoutExpired =>
      logStage "autoconnect-check" 3 none
      pure (some (failureMessage 3 none))
  | .osError =>
      logStage "autoconnect-check" 8 none
      pure (some (failureMessage 8 none))
  | .completed returncode stdout =>
      if returncode ≠ 0 then
        let reason ← wifiReason E
        logStage "autoconnect-check" returncode reason
        pure (some (failureMessage returncode reason))
      else if !autoconnectSet stdout then
        logStage "autoconnect-check" 0 none
        pure (some "NetworkManagerの自動再接続を確認できませんでした。もう一度接続してください。")
      else if mode = .wpaPersonal && !pskKept stdout then
        logStage "autoconnect-check" 0 none
        pure (some ("現在の起動中に自動再接続用のWi-Fi秘密情報を保持できませんでした。" ++
          "もう一度接続してください。"))
      else pure none

/-! ## before any change -/

/-- `scan_networks` after its `nmcli` call. -/
def scanResult (U : UnicodeData) : Report → Except PyExc (List Network)
  | .timeoutExpired | .osError => .ok []
  | .completed returncode stdout => if returncode ≠ 0 then .ok [] else parseScan U stdout

/-- `scan_networks`. -/
def scanNetworks (E : Env) : Script Entry (Except PyExc (List Network)) := do
  let result ← E.runNmcli .scan
  pure (scanResult E.unicode result)

/-- `unsupported_messages`. -/
def unsupportedMessage : SecurityMode → Option String
  | .wep => some ("このWi-FiはWEP方式のため対応していません。" ++
      "WPA PersonalまたはオープンSSIDを使用してください。")
  | .enterprise => some ("このWi-Fiは802.1X/Enterprise方式のため対応していません。" ++
      "WPA PersonalまたはオープンSSIDを使用してください。")
  | .owe => some ("このWi-FiはOWE方式のため対応していません。" ++
      "WPA PersonalまたはオープンSSIDを使用してください。")
  | .unsupported => some ("このWi-Fiの暗号方式には対応していません。" ++
      "WPA PersonalまたはオープンSSIDを使用してください。")
  | .openNetwork | .wpaPersonal => none

/-- The checks of `_connect_wifi` between the classification and the first
change; `some` is the message of a refusal. -/
def refusal (mode : SecurityMode) (ssid password : PyStr) : Except PyExc (Option String) :=
  match unsupportedMessage mode with
  | some message => .ok (some message)
  | none =>
      if mode = .openNetwork && !password.isEmpty then
        .ok (some "オープンSSIDではパスワードを空欄にしてください。")
      else if mode = .wpaPersonal then
        if password.isEmpty then .ok (some "WPA Personalにはパスワードが必要です。")
        else validateCredentials ssid password
      else .ok none

/-! ## the chain -/

/-- `f"802-11-wireless-security.psk:{password}\n"`. -/
def passwdText (password : PyStr) : PyStr :=
  .lit "802-11-wireless-security.psk:" ++ password ++ [0x0a]

/-- `with _temporary_fd(payload) as (path, fd)` around the activation; an
`OSError` of the file is `Except.error`. -/
def activateWithPassword (E : Env) (payload : List UInt8) :
    Script Entry (Except PyExc (Option String)) := do
  match ← Script.ask (fun journal => E.passwdOpen journal payload) (.passwdOpened payload) with
  | none => pure (.error .osError)
  | some fd =>
      let activated ← runNmcliStage E "activation" (.up (some fd))
      match ← Script.ask E.passwdClose .passwdClosed with
      | false => pure (.error .osError)
      | true => pure (.ok activated)

/-- The activation stage of either security mode. -/
def activate (E : Env) (mode : SecurityMode) (password : PyStr) :
    Script Entry (Except PyExc (Option String)) := do
  if mode = .wpaPersonal then
    match (passwdText password).encodeUtf8 with
    | .error e => pure (.error e)
    | .ok payload => activateWithPassword E payload
  else
    let activated ← runNmcliStage E "activation" (.up none)
    pure (.ok activated)

/-- The stages after the activation, with its outcome: the check, or the
handler of the `try` statement. -/
def afterActivation (E : Env) (mode : SecurityMode) :
    Except PyExc (Option String) → Script Entry (Except PyExc (Option String))
  | .error .osError | .error .timeoutExpired => do
      logStage "internal" 3 none
      pure (.ok (some "Wi-Fi接続処理がタイムアウトしました。"))
  | .error e => pure (.error e)
  | .ok (some failure) => pure (.ok (some failure))
  | .ok none => do
      let autoconnect ← verifyAutoconnect E mode
      pure (.ok autoconnect)

/-- `_connect_wifi` from `profile_created = True` to the end of the `try`
statement; the answer is `failure`. -/
def provision (E : Env) (mode : SecurityMode) (password : PyStr) :
    Script Entry (Except PyExc (Option String)) := do
  match ← runNmcliStage E "profile-configure" (.modifyProfile mode) with
  | some failure => pure (.ok (some failure))
  | none =>
      let activated ← activate E mode password
      afterActivation E mode activated

/-- The end of `_connect_wifi` after a successful chain. -/
def saveConnection (E : Env) (ssid password : PyStr) :
    Script Entry (Except PyExc (Bool × String)) := do
  match ← persistentStorageReady E with
  | .error e => pure (.error e)
  | .ok false => pure (.ok (true, "接続しました。この接続は再起動後には保存されません。"))
  | .ok true =>
      match ← persistCredentials E ssid password with
      | .error .osError =>
          pure (.ok (true, "接続しましたが、再起動後に使う設定は保存できませんでした。"))
      | .error e => pure (.error e)
      | .ok () => pure (.ok (true, "接続しました。寿司打画面へ切り替えます。"))

/-- `_connect_wifi` from the profile creation on.  `failure` is only ever set
after `profile_created = True`, so a failure means that there is a profile to
clean up. -/
def createProfile (E : Env) (mode : SecurityMode) (ssid password : PyStr) :
    Script Entry (Except PyExc (Bool × String)) := do
  match ← runNmcliStage E "profile-create" (.addProfile ssid) with
  | some message => pure (.ok (false, message))
  | none =>
      match ← provision E mode password with
      | .error e => pure (.error e)
      | .ok (some failure) =>
          cleanupProfile E
          pure (.ok (false, failure))
      | .ok none => saveConnection E ssid password

/-- `_connect_wifi` from the first change on. -/
def changeConnection (E : Env) (mode : SecurityMode) (ssid password : PyStr) :
    Script Entry (Except PyExc (Bool × String)) := do
  match ← runNmcliStage E "radio-on" .radioOn with
  | some message => pure (.ok (false, message))
  | none =>
      match ← deleteOldProfile E with
      | some message => pure (.ok (false, message))
      | none => createProfile E mode ssid password

/-- `_connect_wifi`. -/
def connectScanned (E : Env) (ssid password : PyStr) :
    Script Entry (Except PyExc (Bool × String)) := do
  match ← scanNetworks E with
  | .error e => pure (.error e)
  | .ok networks =>
      match networks.find? fun item => item.ssid = ssid with
      | none => pure (.ok (false, "指定したSSIDが見つかりません。" ++
          "隠しSSIDや範囲外のSSIDには対応していません。再スキャンして選び直してください。"))
      | some selected =>
          let mode := classifySecurity E.unicode selected.security
          match refusal mode ssid password with
          | .error e => pure (.error e)
          | .ok (some message) => pure (.ok (false, message))
          | .ok none => changeConnection E mode ssid password

/-- `connect_wifi`. -/
def connectWifi (E : Env) (ssid password : PyStr) :
    Script Entry (Except PyExc (Bool × String)) :=
  match validateSsid ssid with
  | .error e => pure (.error e)
  | .ok (some error) => pure (.ok (false, error))
  | .ok none =>
      match validatePasswordShape password with
      | some error => pure (.ok (false, error))
      | none => connectScanned E ssid password

end SushidaOs
