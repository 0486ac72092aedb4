import SushidaOs.Script
import SushidaOs.Wifi.Scan

/-!
# SushidaOs.Wifi.World

What `connect_wifi` asks of the system: `nmcli` commands, the anonymous
password file, the storage files and the log.

`Entry` is one interaction with its answer, and an `Env` gives the answers.
Each answer may depend on everything that happened before, which the journal
records.  An `nmcli` command is reported to have ended in some way and,
apart from that, has or has not had its effect on NetworkManager; the two are
kept apart because a command that timed out may still have done its work.

Log lines can always be written.
-/

namespace SushidaOs

/-! ## nmcli -/

/-- How a call of `run_nmcli` ends: with the completed process, or with one of
the exceptions of `subprocess.run`. -/
inductive Report where
  | completed (returncode : Int) (stdout : PyStr)
  | timeoutExpired
  | osError
  deriving DecidableEq, Repr

/-- `result.returncode == 0`. -/
def Report.ok : Report → Bool
  | completed returncode _ => returncode = 0
  | _ => false

/-- The argument vectors `connect_wifi` passes to `run_nmcli`. -/
inductive Command where
  /-- The table of `scan_networks`. -/
  | scan
  | radioOn
  | deleteProfile
  | addProfile (ssid : PyStr)
  | modifyProfile (mode : SecurityMode)
  /-- Activation, with the descriptor of the password file if there is one. -/
  | up (passwdFd : Option Nat)
  /-- The two queries of `_wifi_reason`. -/
  | deviceTypes
  | deviceReason (device : PyStr)
  /-- The query of `_profile_exists`. -/
  | profileNames
  /-- The query of `_verify_autoconnect`. -/
  | profileFields (mode : SecurityMode)
  deriving DecidableEq, Repr

namespace Command

/-- `f"/proc/self/fd/{descriptor}"`. -/
def fdPath (descriptor : Nat) : PyStr := .lit s!"/proc/self/fd/{descriptor}"

/-- The fields `_verify_autoconnect` asks for. -/
def autoconnectFields (mode : SecurityMode) : List PyStr :=
  .lit "connection.autoconnect" ::
    if mode = .wpaPersonal then [.lit "802-11-wireless-security.psk-flags"] else []

/-- The arguments after the path of `nmcli`. -/
def args : Command → List PyStr
  | scan => ["-t", "--escape", "yes", "-f", "SSID,SIGNAL,SECURITY", "device", "wifi", "list",
      "--rescan", "yes"].map .lit
  | radioOn => ["radio", "wifi", "on"].map .lit
  | deleteProfile => ["--wait", "5", "connection", "delete", "id"].map .lit ++ [connectionName]
  | addProfile ssid => ["connection", "add", "type", "wifi", "ifname", "*", "con-name"].map .lit ++
      [connectionName, .lit "ssid", ssid]
  | modifyProfile mode => [.lit "connection", .lit "modify", connectionName,
      .lit "connection.autoconnect", .lit "yes"] ++
      if mode = .wpaPersonal then ["802-11-wireless-security.key-mgmt", "wpa-psk",
        "802-11-wireless-security.psk-flags", "0"].map .lit else []
  | up passwdFd => ["--wait", "30", "connection", "up", "id"].map .lit ++ [connectionName] ++
      match passwdFd with
      | some fd => [.lit "passwd-file", fdPath fd]
      | none => []
  | deviceTypes => ["-t", "--escape", "yes", "-f", "DEVICE,TYPE", "device", "status"].map .lit
  | deviceReason device => ["-t", "-f", "GENERAL.REASON", "device", "show"].map .lit ++ [device]
  | profileNames => ["-t", "--escape", "yes", "-f", "NAME", "connection", "show"].map .lit
  | profileFields mode => ["-t", "--escape", "yes", "-f"].map .lit ++
      [PyStr.join (.lit ",") (autoconnectFields mode), .lit "connection", .lit "show",
        .lit "id", connectionName]

/-- The `timeout` of the call, in seconds. -/
def timeout : Command → Nat
  | scan => 15
  | radioOn => 5
  | deleteProfile => 8
  | addProfile _ => 10
  | modifyProfile _ => 10
  | up _ => 35
  | deviceTypes => 5
  | deviceReason _ => 5
  | profileNames => 8
  | profileFields _ => 8

/-- Commands that change NetworkManager: radio on, and connection delete, add,
modify and up. -/
def changing : Command → Bool
  | radioOn | deleteProfile | addProfile _ | modifyProfile _ | up _ => true
  | _ => false

end Command

/-! ## files -/

/-- What `persistent_storage_ready` reads of `lstat`. -/
structure FileStat where
  isRegular : Bool
  isDirectory : Bool
  mode : Nat
  uid : Nat
  deriving DecidableEq, Repr

/-- `read_text(encoding="utf-8")`. -/
inductive ReadText where
  | text (s : PyStr)
  | osError
  | undecodable
  deriving DecidableEq, Repr

/-- The storage as `persistent_storage_ready` finds it; `none` is an
`OSError`. -/
structure StorageView where
  mounted : Option Bool
  status : Option FileStat
  directory : Option FileStat
  statusIsSymlink : Option Bool
  statusText : ReadText
  deriving DecidableEq, Repr

/-- The file operations of `persist_credentials`. -/
inductive FileOp where
  | openTemporary
  /-- Write, flush, sync and close the temporary file. -/
  | writeTemporary (payload : List UInt8)
  /-- `os.replace(temporary, config_file())`. -/
  | replaceConfig (payload : List UInt8)
  | openDirectory
  /-- Sync and close the directory. -/
  | syncDirectory
  /-- `temporary.unlink()`, a missing file being no error. -/
  | unlinkTemporary
  deriving DecidableEq, Repr

/-! ## the journal -/

/-- One interaction with the system and its answer. -/
inductive Entry where
  | nmcli (command : Command) (report : Report) (applied : Bool)
  | log (line : String)
  /-- The password file was made, or making it raised an `OSError`. -/
  | passwdOpened (payload : List UInt8) (descriptor : Option Nat)
  /-- The password file was closed, or closing it raised an `OSError`. -/
  | passwdClosed (ok : Bool)
  | storageRead (view : StorageView)
  /-- A file operation was done, or raised an `OSError`. -/
  | file (op : FileOp) (ok : Bool)
  deriving DecidableEq, Repr

/-- The system, and the process's Unicode tables and user. -/
structure Env where
  unicode : UnicodeData
  /-- `os.getuid()`. -/
  uid : Nat
  /-- The answer to a command line with its timeout in seconds. -/
  nmcli : List Entry → List PyStr → Nat → Report × Bool
  passwdOpen : List Entry → List UInt8 → Option Nat
  passwdClose : List Entry → Bool
  storage : List Entry → StorageView
  file : List Entry → FileOp → Bool

namespace Env

/-- `run_nmcli`. -/
def runNmcli (E : Env) (c : Command) : Script Entry Report := do
  let answer ← Script.ask (fun journal => E.nmcli journal c.args c.timeout)
    fun a => .nmcli c a.1 a.2
  pure answer.1

/-- A file operation; `false` is an `OSError`. -/
def runFile (E : Env) (op : FileOp) : Script Entry Bool :=
  Script.ask (fun journal => E.file journal op) fun ok => .file op ok

end Env

/-! ## what the journal did to the system -/

/-- The content of `setup.json`, `none` while there is no such file. -/
def setupJson (content : Option (List UInt8)) : List Entry → Option (List UInt8)
  | [] => content
  | .file (.replaceConfig payload) true :: rest => setupJson (some payload) rest
  | _ :: rest => setupJson content rest

/-- Whether a profile named `sushida-os-wifi` exists. -/
def profileAfter (present : Bool) : List Entry → Bool
  | [] => present
  | .nmcli (.addProfile _) _ true :: rest => profileAfter true rest
  | .nmcli .deleteProfile _ true :: rest => profileAfter false rest
  | _ :: rest => profileAfter present rest

end SushidaOs
