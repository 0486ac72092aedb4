import SushidaOs.Wifi.Nmcli

/-!
# SushidaOs.Wifi.Secrecy

Two runs of `connect_wifi` with different passwords.

`Entry.scrub` takes the password's bytes out of a journal entry: the payload
of the anonymous password file and that of `setup.json`.  A system that does
not look at them (`Env.Oblivious`) leads both runs through the same branches,
so what is left of the journals is equal, the argument vectors and the log
lines among it.

The lemmas go along the chain.  The stages that are not given the password
compare with themselves (`Blind`); the others are stated for two payloads.
-/

namespace SushidaOs

open Script

/-! ## what an observer sees -/

/-- The operation without the bytes it writes. -/
def FileOp.scrub : FileOp → FileOp
  | writeTemporary _ => writeTemporary []
  | replaceConfig _ => replaceConfig []
  | op => op

/-- The entry without the bytes it writes; whether a command has had its effect
is no part of its answer either. -/
def Entry.scrub : Entry → Entry
  | nmcli command report _ => nmcli command report false
  | passwdOpened _ descriptor => passwdOpened [] descriptor
  | file op ok => file op.scrub ok
  | e => e

/-- The argument vectors of the `nmcli` calls, in order. -/
def argVectors (journal : List Entry) : List (List PyStr) :=
  journal.filterMap fun e => match e with
    | .nmcli c _ _ => some c.args
    | _ => none

/-- The log lines, in order. -/
def logLines (journal : List Entry) : List String :=
  journal.filterMap fun e => match e with
    | .log line => some line
    | _ => none

/-- What is hidden is in no argument vector. -/
theorem argVectors_scrub (journal : List Entry) :
    argVectors (journal.map Entry.scrub) = argVectors journal := by
  simp only [argVectors, List.filterMap_map]
  congr 1
  funext e
  cases e <;> rfl

/-- Nor in a line of the log. -/
theorem logLines_scrub (journal : List Entry) :
    logLines (journal.map Entry.scrub) = logLines journal := by
  simp only [logLines, List.filterMap_map]
  congr 1
  funext e
  cases e <;> rfl

/-- The system's answers do not depend on the bytes that were written.  Answers
that depend on the argument vectors so far are among these
(`argVectors_scrub`). -/
structure Env.Oblivious (E : Env) : Prop where
  nmcli : ∀ (j j' : List Entry) (args : List PyStr) (timeout : Nat),
    j.map Entry.scrub = j'.map Entry.scrub →
    (E.nmcli j args timeout).1 = (E.nmcli j' args timeout).1
  passwdOpen : ∀ (j j' : List Entry) (payload payload' : List UInt8),
    j.map Entry.scrub = j'.map Entry.scrub → E.passwdOpen j payload = E.passwdOpen j' payload'
  passwdClose : ∀ j j' : List Entry,
    j.map Entry.scrub = j'.map Entry.scrub → E.passwdClose j = E.passwdClose j'
  storage : ∀ j j' : List Entry,
    j.map Entry.scrub = j'.map Entry.scrub → E.storage j = E.storage j'
  file : ∀ (j j' : List Entry) (op op' : FileOp), op.scrub = op'.scrub →
    j.map Entry.scrub = j'.map Entry.scrub → E.file j op = E.file j' op'

/-! ## stages without the password -/

/-- Runs of the script from journals that look alike stay alike and answer the
same. -/
def Blind {α : Type} (p : Script Entry α) : Prop := Agree Entry.scrub p p Eq

namespace Blind

theorem pure {α : Type} (a : α) : Blind (Pure.pure a : Script Entry α) := Agree.pure rfl

theorem bind {α β : Type} {p : Script Entry α} {f : α → Script Entry β} (hp : Blind p)
    (hf : ∀ a, Blind (f a)) : Blind (p >>= f) := Agree.bind_eq hp hf

theorem logStage (stage : String) (exitCode : Int) (reason : Option Int) :
    Blind (logStage stage exitCode reason) :=
  Agree.ask (fun _ _ _ => rfl) fun _ _ _ => rfl

/-- A log line before the answer. -/
theorem log {α : Type} (stage : String) (exitCode : Int) (reason : Option Int) (a : α) :
    Blind (do SushidaOs.logStage stage exitCode reason; Pure.pure a) :=
  bind (logStage stage exitCode reason) fun _ => pure a

variable {E : Env} (hE : E.Oblivious)

include hE

theorem runNmcli (c : Command) : Blind (E.runNmcli c) := by
  have hask : Agree Entry.scrub
      (Script.ask (fun journal => E.nmcli journal c.args c.timeout) fun a => .nmcli c a.1 a.2)
      (Script.ask (fun journal => E.nmcli journal c.args c.timeout) fun a => .nmcli c a.1 a.2)
      fun a b => a.1 = b.1 :=
    Agree.ask (fun j j' hj => hE.nmcli j j' c.args c.timeout hj) fun a b hab => by
      simp only [Entry.scrub, hab]
  exact Agree.bind hask fun a b hab => Agree.pure hab

theorem wifiReason : Blind (wifiReason E) := by
  unfold SushidaOs.wifiReason
  refine bind (runNmcli hE _) fun devices => ?_
  cases devices with
  | timeoutExpired => exact pure none
  | osError => exact pure none
  | completed returncode stdout =>
      simp only
      split
      · exact pure none
      split
      · exact pure none
      split
      · exact pure none
      split
      · exact pure none
      · refine bind (runNmcli hE _) fun details => ?_
        cases details with
        | timeoutExpired => exact pure none
        | osError => exact pure none
        | completed returncode stdout =>
            simp only
            split
            · exact pure none
            · exact pure _

/-- The diagnosis, the log line and the message of a failed stage. -/
theorem diagnose (stage : String) (returncode : Int) :
    Blind (do
      let reason ← SushidaOs.wifiReason E
      SushidaOs.logStage stage returncode reason
      Pure.pure (some (failureMessage returncode reason))) :=
  bind (wifiReason hE) fun reason => log stage returncode reason _

theorem runNmcliStage (stage : String) (c : Command) : Blind (runNmcliStage E stage c) := by
  unfold SushidaOs.runNmcliStage
  refine bind (runNmcli hE c) fun result => ?_
  cases result with
  | timeoutExpired => exact log stage 3 none _
  | osError => exact log stage 8 none _
  | completed returncode stdout =>
      simp only
      split
      · exact pure none
      · exact diagnose hE stage returncode

theorem profileExists : Blind (profileExists E) := by
  unfold SushidaOs.profileExists
  refine bind (runNmcli hE _) fun result => ?_
  cases result with
  | timeoutExpired => exact pure none
  | osError => exact pure none
  | completed returncode stdout =>
      simp only
      split
      · exact pure none
      · exact pure _

theorem deleteOldProfile : Blind (deleteOldProfile E) := by
  unfold SushidaOs.deleteOldProfile
  refine bind (runNmcli hE _) fun result => ?_
  cases result with
  | timeoutExpired => exact log "profile-delete" 3 none _
  | osError => exact log "profile-delete" 8 none _
  | completed returncode stdout =>
      simp only
      split
      · exact pure none
      · refine bind (profileExists hE) fun present => ?_
        split
        · exact pure none
        · exact diagnose hE "profile-delete" returncode

theorem cleanupProfile : Blind (cleanupProfile E) := by
  unfold SushidaOs.cleanupProfile
  refine bind (runNmcli hE _) fun result => ?_
  cases result with
  | timeoutExpired => exact logStage "profile-cleanup" 3 none
  | osError => exact logStage "profile-cleanup" 8 none
  | completed returncode stdout =>
      simp only
      split
      · exact pure ()
      · refine bind (profileExists hE) fun present => ?_
        split
        · exact pure ()
        · exact bind (wifiReason hE) fun reason => logStage "profile-cleanup" returncode reason

theorem verifyAutoconnect (mode : SecurityMode) : Blind (verifyAutoconnect E mode) := by
  unfold SushidaOs.verifyAutoconnect
  refine bind (runNmcli hE _) fun result => ?_
  cases result with
  | timeoutExpired => exact log "autoconnect-check" 3 none _
  | osError => exact log "autoconnect-check" 8 none _
  | completed returncode stdout =>
      simp only
      split
      · exact diagnose hE "autoconnect-check" returncode
      split
      · exact log "autoconnect-check" 0 none _
      split
      · exact log "autoconnect-check" 0 none _
      · exact pure none

theorem afterActivation (mode : SecurityMode) (activated : Except PyExc (Option String)) :
    Blind (afterActivation E mode activated) := by
  unfold SushidaOs.afterActivation
  split
  · exact log "internal" 3 none _
  · exact log "internal" 3 none _
  · exact pure _
  · exact pure _
  · exact bind (verifyAutoconnect hE mode) fun autoconnect => pure _

theorem persistentStorageReady : Blind (persistentStorageReady E) :=
  bind (Agree.ask hE.storage fun _ _ hview => by rw [hview]) fun view => pure _

theorem scanNetworks : Blind (scanNetworks E) := bind (runNmcli hE _) fun _ => pure _

end Blind

/-! ## stages with the password -/

section Password

variable {E : Env} (hE : E.Oblivious)

include hE

/-- The two runs write different bytes with the same outcome. -/
theorem runFile_agree {op op' : FileOp} (h : op.scrub = op'.scrub) :
    Agree Entry.scrub (E.runFile op) (E.runFile op') Eq :=
  Agree.ask (fun j j' hj => hE.file j j' op op' h hj) fun ok ok' hok => by
    simp only [Entry.scrub, h, hok]

/-- The payload goes to the file only. -/
theorem replaceConfig_agree (payload payload' : List UInt8) :
    Agree Entry.scrub (replaceConfig E payload) (replaceConfig E payload') Eq := by
  unfold replaceConfig
  refine Agree.bind_eq (runFile_agree hE rfl) fun written => ?_
  cases written with
  | false => exact Agree.pure rfl
  | true =>
      refine Agree.bind_eq (runFile_agree hE rfl) fun replaced => ?_
      cases replaced with
      | false => exact Agree.pure rfl
      | true =>
          refine Agree.bind_eq (runFile_agree hE rfl) fun opened => ?_
          cases opened with
          | false => exact Agree.pure rfl
          | true => exact runFile_agree hE rfl

/-- So it does with the file opened and closed. -/
theorem writeConfig_agree (payload payload' : List UInt8) :
    Agree Entry.scrub (writeConfig E payload) (writeConfig E payload') Eq := by
  unfold writeConfig
  refine Agree.bind_eq (runFile_agree hE rfl) fun opened => ?_
  cases opened with
  | false => exact Agree.pure rfl
  | true =>
      refine Agree.bind_eq (replaceConfig_agree hE payload payload') fun replaced => ?_
      exact Agree.bind_eq (runFile_agree hE rfl) fun unlinked => Agree.pure rfl

/-- The password goes through the descriptor only. -/
theorem activateWithPassword_agree (payload payload' : List UInt8) :
    Agree Entry.scrub (activateWithPassword E payload) (activateWithPassword E payload') Eq := by
  unfold activateWithPassword
  have hopen : Agree Entry.scrub
      (Script.ask (fun journal => E.passwdOpen journal payload) (.passwdOpened payload))
      (Script.ask (fun journal => E.passwdOpen journal payload') (.passwdOpened payload')) Eq :=
    Agree.ask (fun j j' hj => hE.passwdOpen j j' payload payload' hj) fun fd fd' hfd => by
      simp only [Entry.scrub, hfd]
  have hclose : Agree Entry.scrub (Script.ask E.passwdClose .passwdClosed)
      (Script.ask E.passwdClose .passwdClosed) Eq :=
    Agree.ask hE.passwdClose fun ok ok' hok => by rw [hok]
  refine Agree.bind_eq hopen fun fd => ?_
  cases fd with
  | none => exact Agree.pure rfl
  | some fd =>
      refine Agree.bind_eq (Blind.runNmcliStage hE "activation" _) fun activated => ?_
      refine Agree.bind_eq hclose fun closed => ?_
      cases closed with
      | false => exact Agree.pure rfl
      | true => exact Agree.pure rfl

variable {ssid p q : PyStr} (hp : validateCredentials ssid p = .ok none)
  (hq : validateCredentials ssid q = .ok none)

include hp hq

/-- An activation looks the same whatever the password is. -/
theorem activate_agree (mode : SecurityMode) :
    Agree Entry.scrub (activate E mode p) (activate E mode q) Eq := by
  have hencode : ∀ password : PyStr, validateCredentials ssid password = .ok none →
      ∃ payload, (passwdText password).encodeUtf8 = .ok payload := fun password h =>
    PyStr.encodeUtf8_of_encodable (((PyStr.encodable_lit _).append
      (encodable_of_validateCredentials h)).append (PyStr.encodable_lit "\n"))
  obtain ⟨payload, hpayload⟩ := hencode p hp
  obtain ⟨payload', hpayload'⟩ := hencode q hq
  unfold activate
  split
  · simp only [hpayload, hpayload']
    exact activateWithPassword_agree hE payload payload'
  · exact Agree.bind_eq (Blind.runNmcliStage hE "activation" _) fun activated => Agree.pure rfl

/-- So does a provision of the password. -/
theorem provision_agree (mode : SecurityMode) :
    Agree Entry.scrub (provision E mode p) (provision E mode q) Eq := by
  unfold provision
  refine Agree.bind_eq (Blind.runNmcliStage hE "profile-configure" _) fun configured => ?_
  cases configured with
  | some failure => exact Agree.pure rfl
  | none =>
      exact Agree.bind_eq (activate_agree hE hp hq mode) fun activated =>
        Blind.afterActivation hE mode activated

/-- A validated credential has a payload that is not too long, so the write
begins in both runs. -/
theorem persistCredentials_agree :
    Agree Entry.scrub (persistCredentials E ssid p) (persistCredentials E ssid q) Eq := by
  have hssid := validateSsid_of_validateCredentials hp
  have hpayload : ∀ password : PyStr, validateCredentials ssid password = .ok none →
      ∃ text, (configText ssid password).encodeUtf8 = .ok text ∧
        ¬ maxConfigBytes < (text ++ [0x0a]).length := by
    intro password h
    obtain ⟨text, htext⟩ := PyStr.encodeUtf8_of_encodable
      (encodable_configText (encodable_of_validateSsid hssid) (encodable_of_validateCredentials h))
    have hlen := configText_utf8Length (length_of_validateSsid hssid)
      (length_of_validateCredentials h)
    rw [PyStr.utf8Length_of_encodeUtf8 htext] at hlen
    refine ⟨text, htext, ?_⟩
    rw [List.length_append, List.length_singleton]
    omega
  obtain ⟨text, htext, hfits⟩ := hpayload p hp
  obtain ⟨text', htext', hfits'⟩ := hpayload q hq
  unfold persistCredentials
  refine Agree.bind_eq (Blind.persistentStorageReady hE) fun ready => ?_
  split
  · exact Agree.pure rfl
  · exact Agree.pure rfl
  · simp only [htext, htext', hfits, hfits', if_false]
    exact writeConfig_agree hE _ _

/-- So does the saved file. -/
theorem saveConnection_agree :
    Agree Entry.scrub (saveConnection E ssid p) (saveConnection E ssid q) Eq := by
  unfold saveConnection
  refine Agree.bind_eq (Blind.persistentStorageReady hE) fun ready => ?_
  split
  · exact Agree.pure rfl
  · exact Agree.pure rfl
  · refine Agree.bind_eq (persistCredentials_agree hE hp hq) fun saved => ?_
    split
    · exact Agree.pure rfl
    · exact Agree.pure rfl
    · exact Agree.pure rfl

/-- So does a new profile. -/
theorem createProfile_agree (mode : SecurityMode) :
    Agree Entry.scrub (createProfile E mode ssid p) (createProfile E mode ssid q) Eq := by
  unfold createProfile
  refine Agree.bind_eq (Blind.runNmcliStage hE "profile-create" _) fun created => ?_
  cases created with
  | some message => exact Agree.pure rfl
  | none =>
      refine Agree.bind_eq (provision_agree hE hp hq mode) fun failure => ?_
      split
      · exact Agree.pure rfl
      · exact Agree.bind_eq (Blind.cleanupProfile hE) fun _ => Agree.pure rfl
      · exact saveConnection_agree hE hp hq

/-- So does the change of the connection. -/
theorem changeConnection_agree (mode : SecurityMode) :
    Agree Entry.scrub (changeConnection E mode ssid p) (changeConnection E mode ssid q) Eq := by
  unfold changeConnection
  refine Agree.bind_eq (Blind.runNmcliStage hE "radio-on" _) fun radio => ?_
  cases radio with
  | some message => exact Agree.pure rfl
  | none =>
      refine Agree.bind_eq (Blind.deleteOldProfile hE) fun deleted => ?_
      cases deleted with
      | some message => exact Agree.pure rfl
      | none => exact createProfile_agree hE hp hq mode

end Password

/-! ## the whole call -/

/-- The checks before the first change see only whether there is a password. -/
theorem refusal_eq {ssid p q : PyStr} (hp : validateCredentials ssid p = .ok none)
    (hq : validateCredentials ssid q = .ok none) (hpne : p ≠ []) (hqne : q ≠ [])
    (mode : SecurityMode) : refusal mode ssid p = refusal mode ssid q := by
  have hpe : p.isEmpty = false := by simp [hpne]
  have hqe : q.isEmpty = false := by simp [hqne]
  simp only [refusal, hpe, hqe, hp, hq]

/-- **From the scan on** two passwords make the same calls. -/
theorem connectScanned_agree {E : Env} (hE : E.Oblivious) {ssid p q : PyStr}
    (hp : validateCredentials ssid p = .ok none) (hq : validateCredentials ssid q = .ok none)
    (hpne : p ≠ []) (hqne : q ≠ []) :
    Agree Entry.scrub (connectScanned E ssid p) (connectScanned E ssid q) Eq := by
  unfold connectScanned
  refine Agree.bind_eq (Blind.scanNetworks hE) fun scanned => ?_
  cases scanned with
  | error e => exact Agree.pure rfl
  | ok networks =>
      simp only
      split
      · exact Agree.pure rfl
      · next selected hsel =>
          rw [refusal_eq hp hq hpne hqne]
          split
          · exact Agree.pure rfl
          · exact Agree.pure rfl
          · exact changeConnection_agree hE hp hq _

/-- **The password does not leak.**  Two validated passwords give the same
argument vectors, the same log lines and the same answer, and journals that
differ only in the bytes of the password file and of `setup.json`. -/
theorem connect_hides_password {E : Env} (hE : E.Oblivious) {ssid p q : PyStr}
    (hpne : p ≠ []) (hqne : q ≠ []) (hp : validateCredentials ssid p = .ok none)
    (hq : validateCredentials ssid q = .ok none) :
    argVectors (connectWifi E ssid p).run.2 = argVectors (connectWifi E ssid q).run.2 ∧
    logLines (connectWifi E ssid p).run.2 = logLines (connectWifi E ssid q).run.2 ∧
    (connectWifi E ssid p).run.1 = (connectWifi E ssid q).run.1 ∧
    (connectWifi E ssid p).run.2.map Entry.scrub =
      (connectWifi E ssid q).run.2.map Entry.scrub := by
  have hagree : Agree Entry.scrub (connectWifi E ssid p) (connectWifi E ssid q) Eq := by
    simp only [connectWifi, validateSsid_of_validateCredentials hp,
      shape_of_validateCredentials hp, shape_of_validateCredentials hq]
    exact connectScanned_agree hE hp hq hpne hqne
  obtain ⟨hanswer, hjournal⟩ := hagree.run
  refine ⟨?_, ?_, hanswer, hjournal⟩
  · rw [← argVectors_scrub, hjournal, argVectors_scrub]
  · rw [← logLines_scrub, hjournal, logLines_scrub]

/-- A system with one WPA network, where every command succeeds and the
credential can be stored. -/
def wpaNetworkEnv : Env where
  unicode := .ascii
  uid := 1000
  nmcli _ args _ :=
    if args = Command.scan.args then (.completed 0 (.lit "Net:80:WPA2"), false)
    else if args.contains (.lit "show") then
      (.completed 0
        (.lit "connection.autoconnect:yes\n802-11-wireless-security.psk-flags:0"), false)
    else (.completed 0 [], true)
  passwdOpen _ _ := some 7
  passwdClose _ := true
  storage _ := ⟨some true, some ⟨true, false, 0o644, 0⟩, some ⟨false, true, 0o700, 1000⟩,
    some false, .text (.lit "ready")⟩
  file _ _ := true

/-- The environment answers without looking at the password. -/
theorem wpaNetworkEnv_oblivious : wpaNetworkEnv.Oblivious where
  nmcli _ _ _ _ _ := rfl
  passwdOpen _ _ _ _ _ := rfl
  passwdClose _ _ _ := rfl
  storage _ _ _ := rfl
  file _ _ _ _ _ _ := rfl

/-- A passphrase and a raw key, both stored and both unseen. -/
theorem connect_hides_passphrase_and_raw_key :
    ∃ (p q : PyStr), p ≠ q ∧
      (connectWifi wpaNetworkEnv (.lit "Net") p).run.1 =
        .ok (true, "接続しました。寿司打画面へ切り替えます。") ∧
      argVectors (connectWifi wpaNetworkEnv (.lit "Net") p).run.2 =
        argVectors (connectWifi wpaNetworkEnv (.lit "Net") q).run.2 ∧
      (connectWifi wpaNetworkEnv (.lit "Net") q).run.1 =
        .ok (true, "接続しました。寿司打画面へ切り替えます。") := by
  have h := @connect_hides_password wpaNetworkEnv wpaNetworkEnv_oblivious (.lit "Net")
    (.lit "hunter2hunter2") (List.replicate 64 0x61) (by decide) (by decide) (by decide)
    (by decide)
  have hanswer : (connectWifi wpaNetworkEnv (.lit "Net") (.lit "hunter2hunter2")).run.1 =
      .ok (true, "接続しました。寿司打画面へ切り替えます。") := rfl
  exact ⟨_, _, by decide, hanswer, h.1, h.2.2.1.symm.trans hanswer⟩

end SushidaOs
