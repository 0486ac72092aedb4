import SushidaOs.Wifi.Nmcli

/-!
# SushidaOs.Wifi.Connect

What one call of `connect_wifi` does, whatever the system answers.

Of the journal of a call only a few entries matter: the changing commands,
the autoconnect check and the replacement of `setup.json`.  `steps` picks
these out.  Every function of the chain then has a specification that says
which steps it makes and what its answer says about them, and the
specifications are put together along the chain.  The result is that a call
is refused or goes through the chain (`Attempt`), that the chain stops before
`connection add` or comes to it (`Change`), and how it ends from there
(`Creation`); the contract of the chain is read off these.
-/

namespace SushidaOs

open Script (Spec)

/-! ## the steps of a journal -/

/-- A changing command, the autoconnect check, or a new `setup.json`. -/
def Entry.isStep : Entry → Bool
  | .nmcli (.profileFields _) _ _ => true
  | .nmcli c _ _ => c.changing
  | .file (.replaceConfig _) ok => ok
  | _ => false

def steps (journal : List Entry) : List Entry := journal.filter Entry.isStep

@[simp] theorem steps_nil : steps [] = [] := rfl

@[simp] theorem steps_append (t u : List Entry) : steps (t ++ u) = steps t ++ steps u :=
  List.filter_append t u

/-- The steps are entries of the journal. -/
theorem mem_of_mem_steps {e : Entry} {t : List Entry} (h : e ∈ steps t) : e ∈ t :=
  List.mem_of_mem_filter h

theorem mem_steps {e : Entry} {t : List Entry} (h : e ∈ t) (he : e.isStep = true) :
    e ∈ steps t :=
  List.mem_filter.mpr ⟨h, he⟩

/-- The other entries do not touch `setup.json`. -/
theorem setupJson_steps (content : Option (List UInt8)) (journal : List Entry) :
    setupJson content (steps journal) = setupJson content journal := by
  induction journal generalizing content with
  | nil => rfl
  | cons e rest ih =>
      cases e with
      | file op ok =>
          cases op with
          | replaceConfig payload =>
              cases ok with
              | true => exact ih (some payload)
              | false => exact ih content
          | _ => exact ih content
      | nmcli c r a =>
          cases c with
          | scan | deviceTypes | deviceReason | profileNames => exact ih content
          | _ => exact ih content
      | _ => exact ih content

/-- The other entries do not touch the profile. -/
theorem profileAfter_steps (present : Bool) (journal : List Entry) :
    profileAfter present (steps journal) = profileAfter present journal := by
  induction journal generalizing present with
  | nil => rfl
  | cons e rest ih =>
      cases e with
      | nmcli c r a =>
          cases c with
          | addProfile ssid =>
              cases a with
              | true => exact ih true
              | false => exact ih present
          | deleteProfile =>
              cases a with
              | true => exact ih false
              | false => exact ih present
          | _ => exact ih present
      | file op ok =>
          cases op with
          | replaceConfig payload =>
              cases ok with
              | true => exact ih present
              | false => exact ih present
          | _ => exact ih present
      | _ => exact ih present

/-! ## the specification of each function -/

/-- A command is entered with what was reported. -/
theorem runNmcli_spec (E : Env) (c : Command) :
    Spec (E.runNmcli c) fun r t => ∃ a, t = [Entry.nmcli c r a] := by
  refine Spec.bind (Q := fun p t => t = [Entry.nmcli c p.1 p.2]) (Spec.ask fun p => rfl) ?_
  intro p t ht
  exact Spec.pure ⟨p.2, by rw [ht, List.append_nil]⟩

/-- What the storage probe has read, in order. -/
def storageReads (journal : List Entry) : List StorageView :=
  journal.filterMap fun e => match e with
    | .storageRead view => some view
    | _ => none

@[simp] theorem storageReads_append (t u : List Entry) :
    storageReads (t ++ u) = storageReads t ++ storageReads u := List.filterMap_append

/-- A script that makes no step. -/
def Stepless {α : Type} (p : Script Entry α) : Prop := Spec p fun _ t => steps t = []

/-- A script that does not probe the storage. -/
def Unprobed {α : Type} (p : Script Entry α) : Prop := Spec p fun _ t => storageReads t = []

/-- `_wifi_reason` only asks for the devices and for the details of one. -/
theorem wifiReason_spec (Q : List Entry → Prop) (hnil : Q [])
    (happend : ∀ t u, Q t → Q u → Q (t ++ u)) (hdevices : ∀ r a, Q [Entry.nmcli .deviceTypes r a])
    (hdetails : ∀ device r a, Q [Entry.nmcli (.deviceReason device) r a]) (E : Env) :
    Spec (wifiReason E) fun _ t => Q t := by
  have hpure : ∀ reason : Option Int,
      Spec (Pure.pure reason : Script Entry (Option Int)) fun _ t => Q t :=
    fun reason => Spec.pure hnil
  have hbind : ∀ {p : Script Entry Report} {f : Report → Script Entry (Option Int)},
      Spec p (fun _ t => Q t) → (∀ r, Spec (f r) fun _ t => Q t) →
      Spec (p >>= f) fun _ t => Q t :=
    fun hp hf => Spec.bind hp fun r t ht => (hf r).mono fun _ u hu => happend t u ht hu
  have hask : ∀ {c : Command}, (∀ r a, Q [Entry.nmcli c r a]) →
      Spec (E.runNmcli c) fun _ t => Q t := by
    intro c hc
    refine (runNmcli_spec E c).mono ?_
    rintro r t ⟨a, rfl⟩
    exact hc r a
  refine hbind (hask hdevices) fun devices => ?_
  cases devices with
  | timeoutExpired => exact hpure none
  | osError => exact hpure none
  | completed returncode stdout =>
      dsimp only
      split
      · exact hpure none
      · split
        · exact hpure none
        · split
          · exact hpure none
          · split
            · exact hpure none
            · refine hbind (hask (hdetails _)) fun details => ?_
              cases details with
              | timeoutExpired => exact hpure none
              | osError => exact hpure none
              | completed returncode stdout =>
                  dsimp only
                  split
                  · exact hpure none
                  · exact hpure _

namespace Stepless

theorem pure {α : Type} (a : α) : Stepless (Pure.pure a) := Spec.pure rfl

theorem bind {α β : Type} {p : Script Entry α} {f : α → Script Entry β} (hp : Stepless p)
    (hf : ∀ a, Stepless (f a)) : Stepless (p >>= f) :=
  Spec.bind hp fun a t ht => (hf a).mono fun b u hu => by rw [steps_append, ht, hu]; rfl

theorem logStage (stage : String) (exitCode : Int) (reason : Option Int) :
    Stepless (logStage stage exitCode reason) := Spec.enter rfl

theorem wifiReason (E : Env) : Stepless (wifiReason E) :=
  wifiReason_spec (fun t => steps t = []) rfl
    (fun t u ht hu => by rw [steps_append, ht, hu]; rfl) (fun _ _ => rfl) (fun _ _ _ => rfl) E

end Stepless

namespace Unprobed

theorem pure {α : Type} (a : α) : Unprobed (Pure.pure a) := Spec.pure rfl

theorem bind {α β : Type} {p : Script Entry α} {f : α → Script Entry β} (hp : Unprobed p)
    (hf : ∀ a, Unprobed (f a)) : Unprobed (p >>= f) :=
  Spec.bind hp fun a t ht => (hf a).mono fun b u hu => by rw [storageReads_append, ht, hu]; rfl

theorem logStage (stage : String) (exitCode : Int) (reason : Option Int) :
    Unprobed (logStage stage exitCode reason) := Spec.enter rfl

theorem runNmcli (E : Env) (c : Command) : Unprobed (E.runNmcli c) := by
  refine (runNmcli_spec E c).mono ?_
  rintro r t ⟨a, rfl⟩
  rfl

theorem wifiReason (E : Env) : Unprobed (wifiReason E) :=
  wifiReason_spec (fun t => storageReads t = []) rfl
    (fun t u ht hu => by rw [storageReads_append, ht, hu]; rfl) (fun _ _ => rfl)
    (fun _ _ _ => rfl) E

/-- A failed stage that logs and answers its message. -/
theorem log (stage : String) (exitCode : Int) (reason : Option Int) (message : String) :
    Unprobed (do SushidaOs.logStage stage exitCode reason; Pure.pure (some message)) :=
  bind (logStage stage exitCode reason) fun _ => pure (some message)

/-- A failed stage that asks for the reason first. -/
theorem reason (E : Env) (stage : String) (returncode : Int) :
    Unprobed (do
      let reason ← SushidaOs.wifiReason E
      SushidaOs.logStage stage returncode reason
      Pure.pure (some (failureMessage returncode reason))) :=
  bind (wifiReason E) fun reason => log stage returncode reason _

theorem runNmcliStage (E : Env) (stage : String) (c : Command) :
    Unprobed (runNmcliStage E stage c) := by
  refine bind (runNmcli E c) fun r => ?_
  cases r with
  | timeoutExpired => exact log stage 3 none _
  | osError => exact log stage 8 none _
  | completed returncode stdout =>
      dsimp only
      split
      · exact pure none
      · exact reason E stage returncode

theorem profileExists (E : Env) : Unprobed (profileExists E) := by
  refine bind (runNmcli E .profileNames) fun r => ?_
  cases r with
  | timeoutExpired | osError => exact pure none
  | completed returncode stdout =>
      dsimp only
      split
      · exact pure none
      · exact pure _

theorem deleteOldProfile (E : Env) : Unprobed (deleteOldProfile E) := by
  refine bind (runNmcli E .deleteProfile) fun r => ?_
  cases r with
  | timeoutExpired => exact log "profile-delete" 3 none _
  | osError => exact log "profile-delete" 8 none _
  | completed returncode stdout =>
      dsimp only
      split
      · exact pure none
      · refine bind (profileExists E) fun present => ?_
        rcases present with - | _ | _
        · exact reason E "profile-delete" returncode
        · exact pure none
        · exact reason E "profile-delete" returncode

theorem cleanupProfile (E : Env) : Unprobed (cleanupProfile E) := by
  have hlog : ∀ returncode : Int, Unprobed (do
      let reason ← SushidaOs.wifiReason E
      SushidaOs.logStage "profile-cleanup" returncode reason) :=
    fun returncode => bind (wifiReason E) fun reason => logStage "profile-cleanup" returncode reason
  refine bind (runNmcli E .deleteProfile) fun r => ?_
  cases r with
  | timeoutExpired => exact logStage "profile-cleanup" 3 none
  | osError => exact logStage "profile-cleanup" 8 none
  | completed returncode stdout =>
      dsimp only
      split
      · exact pure ()
      · refine bind (profileExists E) fun present => ?_
        rcases present with - | _ | _
        · exact hlog returncode
        · exact pure ()
        · exact hlog returncode

theorem verifyAutoconnect (E : Env) (mode : SecurityMode) :
    Unprobed (verifyAutoconnect E mode) := by
  refine bind (runNmcli E (.profileFields mode)) fun r => ?_
  cases r with
  | timeoutExpired => exact log "autoconnect-check" 3 none _
  | osError => exact log "autoconnect-check" 8 none _
  | completed returncode stdout =>
      dsimp only
      split
      · exact reason E "autoconnect-check" returncode
      split
      · exact log "autoconnect-check" 0 none _
      split
      · exact log "autoconnect-check" 0 none _
      · exact pure none

theorem activate (E : Env) (mode : SecurityMode) (password : PyStr) :
    Unprobed (activate E mode password) := by
  unfold SushidaOs.activate
  split
  · split
    · exact pure _
    · next payload _ =>
        refine bind (Spec.ask fun _ => rfl) fun fd => ?_
        cases fd with
        | none => exact pure _
        | some fd =>
            refine bind (runNmcliStage E "activation" (.up (some fd))) fun activated => ?_
            refine bind (Spec.ask fun _ => rfl) fun ok => ?_
            cases ok with
            | false => exact pure _
            | true => exact pure _
  · exact bind (runNmcliStage E "activation" (.up none)) fun activated => pure _

theorem provision (E : Env) (mode : SecurityMode) (password : PyStr) :
    Unprobed (provision E mode password) := by
  refine bind (runNmcliStage E "profile-configure" (.modifyProfile mode)) fun modified => ?_
  cases modified with
  | some failure => exact pure _
  | none =>
      refine bind (activate E mode password) fun activated => ?_
      unfold afterActivation
      split
      · exact bind (logStage "internal" 3 none) fun _ => pure _
      · exact bind (logStage "internal" 3 none) fun _ => pure _
      · exact pure _
      · exact pure _
      · exact bind (verifyAutoconnect E mode) fun autoconnect => pure _

end Unprobed

/-- A script that makes no step and answers a failure. -/
def Fails (p : Script Entry (Option String)) : Prop :=
  Spec p fun res t => steps t = [] ∧ res ≠ none

namespace Fails

theorem pure (message : String) : Fails (Pure.pure (some message)) := Spec.pure ⟨rfl, by simp⟩

theorem bind {α : Type} {p : Script Entry α} {f : α → Script Entry (Option String)}
    (hp : Stepless p) (hf : ∀ a, Fails (f a)) : Fails (p >>= f) :=
  Spec.bind hp fun a t ht => (hf a).mono fun b u hu => by
    rw [steps_append, ht, hu.1]
    exact ⟨rfl, hu.2⟩

/-- A failed stage logs and answers its message. -/
theorem log (stage : String) (exitCode : Int) (reason : Option Int) (message : String) :
    Fails (do logStage stage exitCode reason; Pure.pure (some message)) :=
  bind (.logStage stage exitCode reason) fun _ => pure message

/-- It may ask for the reason first. -/
theorem reason (E : Env) (stage : String) (returncode : Int) :
    Fails (do
      let reason ← wifiReason E
      logStage stage returncode reason
      Pure.pure (some (failureMessage returncode reason))) :=
  bind (.wifiReason E) fun reason => log stage returncode reason _

end Fails

/-- The single step of a stage, with what its answer says about the report. -/
def StepOf (c : Command) (ok : Report → Bool) (res : Option String) (t : List Entry) : Prop :=
  ∃ r a, steps t = [Entry.nmcli c r a] ∧ (res = none ↔ ok r = true)

/-- The rest of a stage after its command. -/
theorem StepOf.of_rest {c : Command} {ok : Report → Bool} {r : Report} {a : Bool}
    {res : Option String} {u : List Entry} (hc : (Entry.nmcli c r a).isStep = true)
    (hu : steps u = []) (hres : res = none ↔ ok r = true) :
    StepOf c ok res ([Entry.nmcli c r a] ++ u) := by
  refine ⟨r, a, ?_, hres⟩
  rw [steps_append, hu]
  simp [steps, hc]

/-- A stage that fails after its command. -/
theorem Fails.stepOf {p : Script Entry (Option String)} (hp : Fails p) {c : Command}
    {ok : Report → Bool} {r : Report} {a : Bool} (hc : (Entry.nmcli c r a).isStep = true)
    (hok : ok r = false) : Spec p fun res u => StepOf c ok res ([Entry.nmcli c r a] ++ u) := by
  refine hp.mono fun res u hu => StepOf.of_rest hc hu.1 ?_
  simp [hu.2, hok]

/-- `_run_nmcli_stage` makes one step and succeeds on exit code zero. -/
theorem runNmcliStage_spec (E : Env) (stage : String) {c : Command} (hc : c.changing = true) :
    Spec (runNmcliStage E stage c) (StepOf c Report.ok) := by
  have hstep : ∀ r a, (Entry.nmcli c r a).isStep = true := by
    intro r a
    cases c <;> first | rfl | exact hc
  refine Spec.bind (runNmcli_spec E c) ?_
  rintro r t ⟨a, rfl⟩
  cases r with
  | timeoutExpired => exact (Fails.log stage 3 none _).stepOf (hstep _ a) rfl
  | osError => exact (Fails.log stage 8 none _).stepOf (hstep _ a) rfl
  | completed returncode stdout =>
      dsimp only
      split
      · next hzero => exact Spec.pure (StepOf.of_rest (hstep _ a) rfl (by simp [Report.ok, hzero]))
      · next hzero =>
          exact (Fails.reason E stage returncode).stepOf (hstep _ a) (by simp [Report.ok, hzero])

/-- The profile was reported absent. -/
def ReportedAbsent (t : List Entry) : Prop :=
  ∃ r a, Entry.nmcli .profileNames r a ∈ t ∧ r.absent = true

/-- `_profile_exists` answers `False` only when the profile is reported
absent. -/
theorem profileExists_spec (E : Env) :
    Spec (profileExists E) fun res t => steps t = [] ∧ (res = some false → ReportedAbsent t) := by
  refine Spec.bind (runNmcli_spec E .profileNames) ?_
  rintro r t ⟨a, rfl⟩
  cases r with
  | timeoutExpired | osError => exact Spec.pure ⟨rfl, by simp⟩
  | completed returncode stdout =>
      dsimp only
      split
      · exact Spec.pure ⟨rfl, by simp⟩
      · next hzero =>
          refine Spec.pure ⟨rfl, fun habsent => ⟨.completed returncode stdout, a, by simp, ?_⟩⟩
          simp only [ne_eq, not_not] at hzero
          simp only [Option.some.injEq] at habsent
          simp [Report.absent, hzero, habsent]

/-- The step of `_delete_old_profile`. -/
def OldDeleted (res : Option String) (t : List Entry) : Prop :=
  ∃ r a, steps t = [Entry.nmcli .deleteProfile r a] ∧
    (res = none → r.ok = true ∨ ReportedAbsent t)

/-- A refused delete succeeds only when the profile is reported absent. -/
theorem deleteRefused_spec (E : Env) (returncode : Int) :
    Spec (deleteRefused E returncode) fun res t =>
      steps t = [] ∧ (res = none → ReportedAbsent t) := by
  refine Spec.bind (profileExists_spec E) ?_
  intro present t ht
  have hfail : Spec (do
      let reason ← wifiReason E
      logStage "profile-delete" returncode reason
      pure (some (failureMessage returncode reason)))
      fun res u => steps (t ++ u) = [] ∧ (res = none → ReportedAbsent (t ++ u)) := by
    refine (Fails.reason E "profile-delete" returncode).mono fun res u hu => ⟨?_, ?_⟩
    · rw [steps_append, ht.1, hu.1]; rfl
    · exact fun h => absurd h hu.2
  cases present with
  | none => exact hfail
  | some b =>
      cases b with
      | true => exact hfail
      | false => exact Spec.pure (by rw [List.append_nil]; exact ⟨ht.1, fun _ => ht.2 rfl⟩)

/-- `_delete_old_profile` makes one step and succeeds only when the profile was
deleted or reported absent. -/
theorem deleteOldProfile_spec (E : Env) : Spec (deleteOldProfile E) OldDeleted := by
  have hfail : ∀ {p : Script Entry (Option String)} {r : Report} {a : Bool}, Fails p →
      Spec p fun res u => OldDeleted res ([Entry.nmcli .deleteProfile r a] ++ u) := by
    intro p r a hp
    refine hp.mono fun res u hu => ⟨r, a, ?_, fun h => absurd h hu.2⟩
    rw [steps_append, hu.1]; rfl
  refine Spec.bind (runNmcli_spec E .deleteProfile) ?_
  rintro r t ⟨a, rfl⟩
  cases r with
  | timeoutExpired => exact hfail (Fails.log "profile-delete" 3 none _)
  | osError => exact hfail (Fails.log "profile-delete" 8 none _)
  | completed returncode stdout =>
      dsimp only
      split
      · next hzero =>
          exact Spec.pure ⟨.completed returncode stdout, a, rfl, fun _ =>
            .inl (by simp [Report.ok, hzero])⟩
      · refine (deleteRefused_spec E returncode).mono fun res u hu => ?_
        refine ⟨.completed returncode stdout, a, ?_, fun h => .inr ?_⟩
        · rw [steps_append, hu.1]; rfl
        · obtain ⟨r', a', hmem, habsent⟩ := hu.2 h
          exact ⟨r', a', List.mem_append_right _ hmem, habsent⟩

/-- `_cleanup_profile` makes one step. -/
theorem cleanupProfile_spec (E : Env) :
    Spec (cleanupProfile E) fun _ t => ∃ r a, steps t = [Entry.nmcli .deleteProfile r a] := by
  have hrest : ∀ {p : Script Entry Unit} {r : Report} {a : Bool}, Stepless p →
      Spec p fun _ u => ∃ r' a', steps ([Entry.nmcli .deleteProfile r a] ++ u) =
        [Entry.nmcli .deleteProfile r' a'] := by
    intro p r a hp
    refine hp.mono fun _ u hu => ⟨r, a, ?_⟩
    rw [steps_append, hu]; rfl
  refine Spec.bind (runNmcli_spec E .deleteProfile) ?_
  rintro r t ⟨a, rfl⟩
  cases r with
  | timeoutExpired => exact hrest (.logStage "profile-cleanup" 3 none)
  | osError => exact hrest (.logStage "profile-cleanup" 8 none)
  | completed returncode stdout =>
      dsimp only
      split
      · exact hrest (.pure ())
      · refine hrest (.bind ((profileExists_spec E).mono fun _ _ h => h.1) fun present => ?_)
        have hlog : Stepless (do
            let reason ← wifiReason E
            logStage "profile-cleanup" returncode reason) :=
          .bind (.wifiReason E) fun reason => .logStage "profile-cleanup" returncode reason
        cases present with
        | none => exact hlog
        | some b =>
            cases b with
            | true => exact hlog
            | false => exact .pure ()

/-- The answer to the autoconnect check that `_verify_autoconnect` accepts. -/
def Report.verified (mode : SecurityMode) : Report → Bool
  | .completed returncode stdout =>
      returncode = 0 && autoconnectSet stdout && (mode ≠ .wpaPersonal || pskKept stdout)
  | _ => false

/-- `_verify_autoconnect` makes one step. -/
theorem verifyAutoconnect_spec (E : Env) (mode : SecurityMode) :
    Spec (verifyAutoconnect E mode) (StepOf (.profileFields mode) (Report.verified mode)) := by
  refine Spec.bind (runNmcli_spec E (.profileFields mode)) ?_
  rintro r t ⟨a, rfl⟩
  cases r with
  | timeoutExpired => exact (Fails.log "autoconnect-check" 3 none _).stepOf rfl rfl
  | osError => exact (Fails.log "autoconnect-check" 8 none _).stepOf rfl rfl
  | completed returncode stdout =>
      dsimp only
      split
      · next hzero =>
          exact (Fails.reason E "autoconnect-check" returncode).stepOf rfl
            (by simp [Report.verified, hzero])
      next hzero =>
      split
      · next hset =>
          exact (Fails.log "autoconnect-check" 0 none _).stepOf rfl
            (by simpa [Report.verified, hset] using fun _ h => absurd h (by simpa using hset))
      next hset =>
      split
      · next hkept =>
          exact (Fails.log "autoconnect-check" 0 none _).stepOf rfl
            (by simpa [Report.verified] using fun _ _ => hkept)
      · next hkept =>
          have hverified : Report.verified mode (.completed returncode stdout) = true := by
            simp only [ne_eq, not_not] at hzero
            simp only [Bool.not_eq_true, Bool.not_eq_false'] at hset
            simp only [Bool.not_eq_true, Bool.and_eq_false_iff, Bool.not_eq_false'] at hkept
            simpa [Report.verified, hzero, hset] using hkept
          exact Spec.pure (StepOf.of_rest rfl rfl (by simp [hverified]))

/-! ## from the creation of the profile on -/

/-- The step of the activation stage, if the password file could be made. -/
def Activation (res : Except PyExc (Option String)) (t : List Entry) : Prop :=
  (res = .error .osError ∧ ∀ e ∈ steps t, ∃ fd r a, e = .nmcli (.up fd) r a) ∨
    ∃ activated fd, res = .ok activated ∧ StepOf (.up fd) Report.ok activated t

/-- The activation with a password file, call by call. -/
theorem activateWithPassword_spec (E : Env) (payload : List UInt8) :
    Spec (activateWithPassword E payload) Activation := by
  refine Spec.bind (Q := fun fd t => t = [Entry.passwdOpened payload fd]) (Spec.ask fun _ => rfl) ?_
  rintro fd t rfl
  cases fd with
  | none => exact Spec.pure (.inl ⟨rfl, by simp [steps, Entry.isStep]⟩)
  | some fd =>
      refine Spec.bind (runNmcliStage_spec E "activation" (c := .up (some fd)) rfl) ?_
      rintro activated u ⟨r, a, hsteps, hok⟩
      refine Spec.bind (Q := fun ok v => v = [Entry.passwdClosed ok]) (Spec.ask fun _ => rfl) ?_
      rintro ok v rfl
      have hall : steps ([Entry.passwdOpened payload (some fd)] ++
          (u ++ ([Entry.passwdClosed ok] ++ []))) =
          [Entry.nmcli (.up (some fd)) r a] := by
        rw [steps_append, steps_append, hsteps]
        rfl
      cases ok with
      | false =>
          refine Spec.pure (.inl ⟨rfl, fun e he => ?_⟩)
          rw [hall] at he
          exact ⟨some fd, r, a, List.mem_singleton.mp he⟩
      | true => exact Spec.pure (.inr ⟨activated, some fd, rfl, r, a, hall, hok⟩)

/-- The activation of either kind. -/
theorem activate_spec (E : Env) (mode : SecurityMode) {password : PyStr}
    (hp : password.Encodable) : Spec (activate E mode password) Activation := by
  unfold activate
  split
  · have hpasswd : (passwdText password).Encodable :=
      ((PyStr.encodable_lit _).append hp).append (PyStr.encodable_lit "\n")
    obtain ⟨payload, hpayload⟩ := PyStr.encodeUtf8_of_encodable hpasswd
    simp only [hpayload]
    exact activateWithPassword_spec E payload
  · refine Spec.bind (runNmcliStage_spec E "activation" (c := .up none) rfl) ?_
    intro activated t ht
    exact Spec.pure (.inr ⟨activated, none, rfl, by rw [List.append_nil]; exact ht⟩)

/-- A step of the chain after `connection add`, other than a check that was
passed. -/
def LateStep (mode : SecurityMode) (e : Entry) : Prop :=
  (∃ r a, e = .nmcli (.modifyProfile mode) r a) ∨ (∃ fd r a, e = .nmcli (.up fd) r a) ∨
    ∃ r a, e = .nmcli (.profileFields mode) r a ∧ r.verified mode = false

/-- The steps of `provision`. -/
inductive Provision (mode : SecurityMode) :
    Except PyExc (Option String) → List Entry → Prop
  | failed {failure : String} {t : List Entry} (h : ∀ e ∈ steps t, LateStep mode e) :
      Provision mode (.ok (some failure)) t
  | done {t : List Entry} (r₁ r₂ r₃ : Report) (a₁ a₂ a₃ : Bool) (fd : Option Nat)
      (h : steps t = [Entry.nmcli (.modifyProfile mode) r₁ a₁, .nmcli (.up fd) r₂ a₂,
        .nmcli (.profileFields mode) r₃ a₃])
      (h₁ : r₁.ok = true) (h₂ : r₂.ok = true) (h₃ : r₃.verified mode = true) :
      Provision mode (.ok none) t

/-- The check after the activation, or the handler. -/
theorem afterActivation_spec (E : Env) (mode : SecurityMode) {r₁ : Report} {a₁ : Bool}
    {t u : List Entry} {activated : Except PyExc (Option String)}
    (ht : steps t = [Entry.nmcli (.modifyProfile mode) r₁ a₁]) (h₁ : r₁.ok = true)
    (hu : Activation activated u) :
    Spec (afterActivation E mode activated) fun res v => Provision mode res (t ++ (u ++ v)) := by
  -- what a step may be once the chain has failed
  have hlate : ∀ v, (∀ e ∈ steps u, ∃ fd r a, e = .nmcli (.up fd) r a) →
      (∀ e ∈ steps v, LateStep mode e) → ∀ e ∈ steps (t ++ (u ++ v)), LateStep mode e := by
    intro v hup hv e he
    rw [steps_append, steps_append, ht] at he
    simp only [List.cons_append, List.nil_append, List.mem_cons, List.mem_append] at he
    rcases he with rfl | h | h
    · exact .inl ⟨r₁, a₁, rfl⟩
    · exact .inr (.inl (hup e h))
    · exact hv e h
  cases hu with
  | inl herror =>
      obtain ⟨rfl, hup⟩ := herror
      refine Spec.bind (Stepless.logStage "internal" 3 none) fun _ v hv => Spec.pure ?_
      rw [List.append_nil]
      exact .failed (hlate v hup (by simp [hv]))
  | inr hok =>
      obtain ⟨o, fd, rfl, r₂, a₂, hsteps, hres⟩ := hok
      have hup : ∀ e ∈ steps u, ∃ fd r a, e = .nmcli (.up fd) r a := by
        intro e he
        rw [hsteps] at he
        exact ⟨fd, r₂, a₂, List.mem_singleton.mp he⟩
      cases o with
      | some failure => exact Spec.pure (.failed (hlate [] hup (by simp)))
      | none =>
          refine Spec.bind (verifyAutoconnect_spec E mode) ?_
          rintro autoconnect v ⟨r₃, a₃, hv, hverified⟩
          refine Spec.pure ?_
          rw [List.append_nil]
          cases autoconnect with
          | some failure =>
              refine .failed (hlate v hup fun e he => ?_)
              rw [hv] at he
              exact .inr (.inr ⟨r₃, a₃, List.mem_singleton.mp he, by simpa using hverified⟩)
          | none =>
              refine .done r₁ r₂ r₃ a₁ a₂ a₃ fd ?_ h₁ (hres.mp rfl) (hverified.mp rfl)
              rw [steps_append, steps_append, ht, hsteps, hv]
              rfl

/-- The profile is configured, activated and checked, in this order. -/
theorem provision_spec (E : Env) (mode : SecurityMode) {password : PyStr}
    (hp : password.Encodable) : Spec (provision E mode password) (Provision mode) := by
  refine Spec.bind (runNmcliStage_spec E "profile-configure" (c := .modifyProfile mode) rfl) ?_
  rintro modified t ⟨r₁, a₁, ht, hok⟩
  cases modified with
  | some failure =>
      refine Spec.pure (.failed fun e he => ?_)
      rw [List.append_nil, ht] at he
      exact .inl ⟨r₁, a₁, List.mem_singleton.mp he⟩
  | none =>
      refine Spec.bind (activate_spec E mode hp) fun activated u hu => ?_
      exact afterActivation_spec E mode ht (hok.mp rfl) hu

/-! ## saving -/

/-- The only steps are replacements of `setup.json`. -/
def Replaces (t : List Entry) : Prop :=
  ∀ e ∈ steps t, ∃ payload, e = .file (.replaceConfig payload) true

namespace Replaces

theorem of_stepless {t : List Entry} (h : steps t = []) : Replaces t := by
  simp [Replaces, h]

theorem append {t u : List Entry} (ht : Replaces t) (hu : Replaces u) : Replaces (t ++ u) := by
  intro e he
  rw [steps_append] at he
  exact (List.mem_append.mp he).elim (ht e) (hu e)

/-- Sequencing of scripts whose only steps are replacements. -/
theorem bind {α β : Type} {p : Script Entry α} {f : α → Script Entry β}
    (hp : Spec p fun _ => Replaces) (hf : ∀ a, Spec (f a) fun _ => Replaces) :
    Spec (p >>= f) fun _ => Replaces :=
  Spec.bind hp fun a _ ht => (hf a).mono fun _ _ hu => ht.append hu

theorem runFile (E : Env) (op : FileOp) : Spec (E.runFile op) fun _ => Replaces := by
  refine Spec.ask fun ok e he => ?_
  have hmem : e = .file op ok := List.mem_singleton.mp (mem_of_mem_steps he)
  have hstep : e.isStep = true := (List.mem_filter.mp he).2
  rw [hmem] at hstep ⊢
  cases op with
  | replaceConfig payload =>
      have hok : ok = true := hstep
      exact ⟨payload, by rw [hok]⟩
  | _ => contradiction

theorem replaceConfig (E : Env) (payload : List UInt8) :
    Spec (replaceConfig E payload) fun _ => Replaces := by
  have hfalse : Spec (pure false : Script Entry Bool) fun _ => Replaces :=
    Spec.pure (of_stepless rfl)
  refine bind (runFile E _) fun written => ?_
  cases written with
  | false => exact hfalse
  | true =>
      refine bind (runFile E _) fun replaced => ?_
      cases replaced with
      | false => exact hfalse
      | true =>
          refine bind (runFile E _) fun opened => ?_
          cases opened with
          | false => exact hfalse
          | true => exact runFile E _

end Replaces

/-- `persistent_storage_ready` answers what its reading says. -/
theorem persistentStorageReady_spec (E : Env) :
    Spec (persistentStorageReady E) fun res t =>
      ∃ v, t = [Entry.storageRead v] ∧ res = v.ready E.uid := by
  refine Spec.bind (Q := fun v t => t = [Entry.storageRead v]) (Spec.ask fun _ => rfl) ?_
  rintro v t rfl
  exact Spec.pure ⟨v, by rw [List.append_nil], rfl⟩

/-- An exception other than `OSError` comes from the storage probe. -/
def ProbeRaised (uid : Nat) (e : PyExc) (t : List Entry) : Prop :=
  ∃ v ∈ storageReads t, v.ready uid = .error e

/-- No probe has raised. -/
def Readable (t : List Entry) : Prop := ∀ v ∈ storageReads t, ¬ v.Undecodable

/-- An exception of the check is a status file that cannot be read. -/
theorem ProbeRaised.not_readable {uid : Nat} {e : PyExc} {t : List Entry}
    (h : ProbeRaised uid e t) : ¬ Readable t := by
  obtain ⟨v, hv, hraise⟩ := h
  exact fun hread => hread v hv (StorageView.ready_eq_error_iff.mp hraise).1

theorem Readable.of_ready {uid : Nat} {v : StorageView} {b : Bool} (h : v.ready uid = .ok b) :
    Readable [Entry.storageRead v] := by
  intro w hw hundecodable
  have hsame : w = v := List.mem_singleton.mp hw
  have hraise : v.ready uid = .error .unicodeDecodeError :=
    StorageView.ready_eq_error_iff.mpr ⟨hsame ▸ hundecodable, rfl⟩
  rw [h] at hraise
  contradiction

/-- A journal is readable if both its parts are. -/
theorem Readable.append {t u : List Entry} (ht : Readable t) (hu : Readable u) :
    Readable (t ++ u) := by
  intro v hv
  rw [storageReads_append] at hv
  exact (List.mem_append.mp hv).elim (ht v) (hu v)

theorem Readable.of_unprobed {t : List Entry} (h : storageReads t = []) : Readable t := by
  intro v hv
  rw [h] at hv
  contradiction

/-- Writing the file does not look at the storage status. -/
theorem Unprobed.writeConfig (E : Env) (payload : List UInt8) :
    Unprobed (writeConfig E payload) := by
  have hrun : ∀ op, Unprobed (E.runFile op) := fun op => Spec.ask fun _ => rfl
  have hreplace : Unprobed (replaceConfig E payload) := by
    refine bind (hrun _) fun written => ?_
    cases written with
    | false => exact pure _
    | true =>
        refine bind (hrun _) fun replaced => ?_
        cases replaced with
        | false => exact pure _
        | true =>
            refine bind (hrun _) fun opened => ?_
            cases opened with
            | false => exact pure _
            | true => exact hrun _
  refine bind (hrun _) fun opened => ?_
  cases opened with
  | false => exact pure _
  | true => exact bind hreplace fun replaced => bind (hrun _) fun unlinked => pure _

/-- The temporary file, its replacement and its removal: only `OSError`. -/
theorem writeConfig_spec (E : Env) (payload : List UInt8) :
    Spec (writeConfig E payload) fun res t => Replaces t ∧ ∀ e, res = .error e → e = .osError := by
  refine Spec.bind (Replaces.runFile E _) fun opened t ht => ?_
  cases opened with
  | false => exact Spec.pure ⟨by rw [List.append_nil]; exact ht, by simp⟩
  | true =>
      refine Spec.bind (Replaces.replaceConfig E payload) fun replaced u hu => ?_
      refine Spec.bind (Replaces.runFile E _) fun unlinked v hv => Spec.pure ⟨?_, ?_⟩
      · rw [List.append_nil]
        exact ht.append (hu.append hv)
      · intro e he
        split at he
        · contradiction
        · simpa using he.symm

/-- `persist_credentials` raises `OSError`, or what the storage probe raised. -/
theorem persistCredentials_spec (E : Env) {ssid password : PyStr} (hs : ssid.Encodable)
    (hp : password.Encodable) :
    Spec (persistCredentials E ssid password) fun res t => Replaces t ∧
      ((res = .ok () ∨ res = .error .osError) ∧ Readable t ∨
        ∃ e, res = .error e ∧ ProbeRaised E.uid e t) := by
  refine Spec.bind (persistentStorageReady_spec E) ?_
  rintro ready t ⟨v, rfl, hready⟩
  have hnone : Replaces [Entry.storageRead v] := .of_stepless rfl
  cases ready with
  | error e => exact Spec.pure ⟨hnone, .inr ⟨e, rfl, v, List.mem_cons_self, hready.symm⟩⟩
  | ok b =>
      have hread : Readable [Entry.storageRead v] := .of_ready hready.symm
      have hfailed : Spec (pure (.error .osError) : Script Entry (Except PyExc Unit))
          fun res u => Replaces ([Entry.storageRead v] ++ u) ∧
            ((res = .ok () ∨ res = .error .osError) ∧ Readable ([Entry.storageRead v] ++ u) ∨
              ∃ e, res = .error e ∧ ProbeRaised E.uid e ([Entry.storageRead v] ++ u)) :=
        Spec.pure ⟨hnone, .inl ⟨.inr rfl, hread⟩⟩
      cases b with
      | false => exact hfailed
      | true =>
          obtain ⟨text, htext⟩ := PyStr.encodeUtf8_of_encodable (encodable_configText hs hp)
          simp only [htext]
          split
          · exact hfailed
          · refine ((writeConfig_spec E _).and (Unprobed.writeConfig E _)).mono fun res u hu => ?_
            obtain ⟨⟨hreplaces, herror⟩, hunprobed⟩ := hu
            refine ⟨hnone.append hreplaces, .inl ⟨?_, hread.append (.of_unprobed hunprobed)⟩⟩
            cases res with
            | ok _ => exact .inl rfl
            | error e => exact .inr (by rw [herror e rfl])

/-- After a successful chain the answer is `True`, unless the storage probe
raises. -/
def Saved (uid : Nat) (res : Except PyExc (Bool × String)) (t : List Entry) : Prop :=
  Replaces t ∧
    ((∃ m, res = .ok (true, m)) ∧ Readable t ∨ ∃ e, res = .error e ∧ ProbeRaised uid e t)

/-- At the end only the saved file is touched, and nothing raises but the check of the storage. -/
theorem saveConnection_spec (E : Env) {ssid password : PyStr} (hs : ssid.Encodable)
    (hp : password.Encodable) : Spec (saveConnection E ssid password) (Saved E.uid) := by
  refine Spec.bind (persistentStorageReady_spec E) ?_
  rintro ready t ⟨v, rfl, hready⟩
  have hnone : Replaces [Entry.storageRead v] := .of_stepless rfl
  cases ready with
  | error e => exact Spec.pure ⟨hnone, .inr ⟨e, rfl, v, List.mem_cons_self, hready.symm⟩⟩
  | ok b =>
      have hread : Readable [Entry.storageRead v] := .of_ready hready.symm
      cases b with
      | false => exact Spec.pure ⟨hnone, .inl ⟨⟨_, rfl⟩, hread⟩⟩
      | true =>
          refine Spec.bind (persistCredentials_spec E hs hp) fun res u hu => ?_
          have hall : Replaces ([Entry.storageRead v] ++ (u ++ [])) := by
            rw [List.append_nil]
            exact hnone.append hu.1
          rcases hu.2 with ⟨hres, hu⟩ | ⟨e, rfl, w, hw, hraise⟩
          · have hread' : Readable ([Entry.storageRead v] ++ (u ++ [])) := by
              rw [List.append_nil]
              exact hread.append hu
            rcases hres with rfl | rfl
            · exact Spec.pure ⟨hall, .inl ⟨⟨_, rfl⟩, hread'⟩⟩
            · exact Spec.pure ⟨hall, .inl ⟨⟨_, rfl⟩, hread'⟩⟩
          · obtain ⟨-, rfl⟩ := StorageView.ready_eq_error_iff.mp hraise
            refine Spec.pure ⟨hall, .inr ⟨_, rfl, w, ?_, hraise⟩⟩
            rw [List.append_nil, storageReads_append]
            exact List.mem_append_right _ hw

/-! ## the ways a call ends -/

/-- How the chain ends from `connection add` on. -/
inductive Creation (uid : Nat) (mode : SecurityMode) (ssid : PyStr) :
    Except PyExc (Bool × String) → List Entry → Prop
  /-- The add was not reported successful; nothing is cleaned up. -/
  | addFailed {m : String} {t : List Entry} (r : Report) (a : Bool)
      (h : steps t = [Entry.nmcli (.addProfile ssid) r a]) (hr : r.ok = false)
      (hread : storageReads t = []) : Creation uid mode ssid (.ok (false, m)) t
  /-- A later stage failed and the profile was deleted. -/
  | cleanedUp {m : String} {t : List Entry} (r r' : Report) (a a' : Bool) (late : List Entry)
      (h : steps t = .nmcli (.addProfile ssid) r a :: (late ++ [Entry.nmcli .deleteProfile r' a']))
      (hr : r.ok = true) (hlate : ∀ e ∈ late, LateStep mode e) (hread : storageReads t = []) :
      Creation uid mode ssid (.ok (false, m)) t
  /-- Every stage succeeded. -/
  | connected {res : Except PyExc (Bool × String)} {t : List Entry} (r : Report) (a : Bool)
      (u v : List Entry) (ht : steps t = .nmcli (.addProfile ssid) r a :: (steps u ++ steps v))
      (hr : r.ok = true) (hu : Provision mode (.ok none) u) (hv : Saved uid res v)
      (hread : storageReads t = storageReads v) : Creation uid mode ssid res t

/-- The profile is made, and removed again if a later stage fails. -/
theorem createProfile_spec (E : Env) (mode : SecurityMode) {ssid password : PyStr}
    (hs : ssid.Encodable) (hp : password.Encodable) :
    Spec (createProfile E mode ssid password) (Creation E.uid mode ssid) := by
  refine Spec.bind ((runNmcliStage_spec E "profile-create" (c := .addProfile ssid) rfl).and
    (Unprobed.runNmcliStage E _ _)) ?_
  rintro created t ⟨⟨r, a, ht, hok⟩, htr⟩
  cases created with
  | some m =>
      refine Spec.pure (.addFailed r a ?_ (by simpa using hok) ?_)
      · rw [List.append_nil, ht]
      · rw [List.append_nil, htr]
  | none =>
      have hr : r.ok = true := hok.mp rfl
      refine Spec.bind ((provision_spec E mode hp).and (Unprobed.provision E mode password)) ?_
      rintro failure u ⟨hu, hur⟩
      cases hu with
      | failed hlate =>
          refine Spec.bind ((cleanupProfile_spec E).and (Unprobed.cleanupProfile E)) ?_
          rintro _ v ⟨⟨r', a', hv⟩, hvr⟩
          refine Spec.pure (.cleanedUp r r' a a' (steps u) ?_ hr hlate ?_)
          · rw [List.append_nil, steps_append, steps_append, ht, hv]
            rfl
          · rw [List.append_nil, storageReads_append, storageReads_append, htr, hur, hvr]
            rfl
      | done r₁ r₂ r₃ a₁ a₂ a₃ fd hsteps h₁ h₂ h₃ =>
          refine (saveConnection_spec E hs hp).mono fun res v hv => ?_
          refine .connected r a u v ?_ hr (.done r₁ r₂ r₃ a₁ a₂ a₃ fd hsteps h₁ h₂ h₃) hv ?_
          · rw [steps_append, steps_append, ht]
            rfl
          · rw [storageReads_append, storageReads_append, htr, hur]
            rfl

/-- How the chain ends from the first change on. -/
inductive Change (uid : Nat) (mode : SecurityMode) (ssid : PyStr) :
    Except PyExc (Bool × String) → List Entry → Prop
  /-- The radio or the old profile stopped it. -/
  | stopped {m : String} {t : List Entry}
      (h : ∀ e ∈ steps t, ∃ r a, e = .nmcli .radioOn r a ∨ e = .nmcli .deleteProfile r a)
      (hread : storageReads t = []) : Change uid mode ssid (.ok (false, m)) t
  | created {res : Except PyExc (Bool × String)} {t u : List Entry} (r₁ r₂ : Report)
      (a₁ a₂ : Bool) (ht : steps t = [Entry.nmcli .radioOn r₁ a₁, .nmcli .deleteProfile r₂ a₂])
      (h₁ : r₁.ok = true) (h₂ : r₂.ok = true ∨ ReportedAbsent t)
      (hread : storageReads t = []) (hu : Creation uid mode ssid res u) :
      Change uid mode ssid res (t ++ u)

/-- The radio first, then the old profile, then the new one. -/
theorem changeConnection_spec (E : Env) (mode : SecurityMode) {ssid password : PyStr}
    (hs : ssid.Encodable) (hp : password.Encodable) :
    Spec (changeConnection E mode ssid password) (Change E.uid mode ssid) := by
  refine Spec.bind ((runNmcliStage_spec E "radio-on" (c := .radioOn) rfl).and
    (Unprobed.runNmcliStage E _ _)) ?_
  rintro radio t ⟨⟨r₁, a₁, ht, hok⟩, htr⟩
  cases radio with
  | some m =>
      refine Spec.pure (.stopped (fun e he => ?_) (by rw [List.append_nil, htr]))
      rw [List.append_nil, ht] at he
      exact ⟨r₁, a₁, .inl (List.mem_singleton.mp he)⟩
  | none =>
      refine Spec.bind ((deleteOldProfile_spec E).and (Unprobed.deleteOldProfile E)) ?_
      rintro deleted u ⟨⟨r₂, a₂, hu, hgone⟩, hur⟩
      have htur : storageReads (t ++ u) = [] := by
        rw [storageReads_append, htr, hur]
        rfl
      have htu : steps (t ++ u) = [Entry.nmcli .radioOn r₁ a₁, .nmcli .deleteProfile r₂ a₂] := by
        rw [steps_append, ht, hu]
        rfl
      cases deleted with
      | some m =>
          refine Spec.pure (.stopped (fun e he => ?_) (by rw [List.append_nil, htur]))
          rw [List.append_nil, htu] at he
          simp only [List.mem_cons, List.not_mem_nil, or_false] at he
          cases he with
          | inl h => exact ⟨r₁, a₁, .inl h⟩
          | inr h => exact ⟨r₂, a₂, .inr h⟩
      | none =>
          refine (createProfile_spec E mode hs hp).mono fun res v hv => ?_
          rw [← List.append_assoc]
          refine .created r₁ r₂ a₁ a₂ htu (hok.mp rfl) ?_ htur hv
          cases hgone rfl with
          | inl h => exact .inl h
          | inr h =>
              obtain ⟨r, a, hmem, habsent⟩ := h
              exact .inr ⟨r, a, List.mem_append_right t hmem, habsent⟩

/-- What the checks before the first change let through. -/
def Admissible (mode : SecurityMode) (ssid password : PyStr) : Prop :=
  (mode = .openNetwork ∧ password = []) ∨
    (mode = .wpaPersonal ∧ password ≠ [] ∧ validateCredentials ssid password = .ok none)

/-- What is not refused can be tried. -/
theorem admissible_of_refusal {mode : SecurityMode} {ssid password : PyStr}
    (h : refusal mode ssid password = .ok none) : Admissible mode ssid password := by
  cases mode with
  | openNetwork =>
      cases password with
      | nil => exact .inl ⟨rfl, rfl⟩
      | cons c cs => simp [refusal, unsupportedMessage] at h
  | wpaPersonal =>
      cases password with
      | nil => simp [refusal, unsupportedMessage] at h
      | cons c cs => exact .inr ⟨rfl, by simp, h⟩
  | wep | enterprise | owe | unsupported => simp [refusal, unsupportedMessage] at h

theorem Admissible.encodable {mode : SecurityMode} {ssid password : PyStr}
    (h : Admissible mode ssid password) : password.Encodable := by
  cases h with
  | inl hopen => rw [hopen.2]; exact fun c hc => by contradiction
  | inr hwpa => exact encodable_of_validateCredentials hwpa.2.2

/-- The scan of the call found the network, and its mode and the password may
go together. -/
def Admitted (U : UnicodeData) (ssid password : PyStr) (mode : SecurityMode) (report : Report) :
    Prop :=
  ∃ networks selected, scanResult U report = .ok networks ∧
    networks.find? (fun item => item.ssid = ssid) = some selected ∧
    classifySecurity U selected.security = mode ∧ Admissible mode ssid password

/-- **How a call ends**: it is refused before any step, or it has scanned, found
the network admissible and gone through the chain. -/
inductive Attempt (E : Env) (ssid password : PyStr) :
    Except PyExc (Bool × String) → List Entry → Prop
  | refused {res : Except PyExc (Bool × String)} {t : List Entry} (h : steps t = [])
      (hres : ∀ m, res ≠ .ok (true, m)) (hread : storageReads t = []) :
      Attempt E ssid password res t
  | scanned {res : Except PyExc (Bool × String)} {t : List Entry} (mode : SecurityMode)
      (report : Report) (a : Bool) (h : Admitted E.unicode ssid password mode report)
      (ht : Change E.uid mode ssid res t) :
      Attempt E ssid password res (.nmcli .scan report a :: t)

/-- `scan_networks` answers what the table of its command says. -/
theorem scanNetworks_spec (E : Env) :
    Spec (scanNetworks E) fun res t =>
      ∃ report a, t = [Entry.nmcli .scan report a] ∧ res = scanResult E.unicode report := by
  refine Spec.bind (runNmcli_spec E .scan) ?_
  rintro report t ⟨a, rfl⟩
  exact Spec.pure ⟨report, a, by rw [List.append_nil], rfl⟩

/-- An attempt on a network that was found. -/
theorem connectScanned_spec (E : Env) {ssid password : PyStr} (hs : ssid.Encodable) :
    Spec (connectScanned E ssid password) (Attempt E ssid password) := by
  refine Spec.bind (scanNetworks_spec E) ?_
  rintro scanned t ⟨report, a, rfl, hresult⟩
  cases scanned with
  | error e => exact Spec.pure (.refused rfl (by simp) rfl)
  | ok networks =>
      dsimp only
      cases hfind : networks.find? fun item => item.ssid = ssid with
      | none => exact Spec.pure (.refused rfl (by simp) rfl)
      | some selected =>
          dsimp only
          cases hrefusal : refusal (classifySecurity E.unicode selected.security) ssid password with
          | error e => exact Spec.pure (.refused rfl (by simp) rfl)
          | ok message =>
              cases message with
              | some m => exact Spec.pure (.refused rfl (by simp) rfl)
              | none =>
                  have hadm := admissible_of_refusal hrefusal
                  refine (changeConnection_spec E _ hs hadm.encodable).mono fun res u hu => ?_
                  exact .scanned _ report a ⟨networks, selected, hresult.symm, hfind, rfl, hadm⟩ hu

/-- The specification of `connect_wifi`. -/
theorem connectWifi_spec (E : Env) (ssid password : PyStr) :
    Spec (connectWifi E ssid password) (Attempt E ssid password) := by
  unfold connectWifi
  cases hssid : validateSsid ssid with
  | error e => exact Spec.pure (.refused rfl (by simp) rfl)
  | ok error =>
      cases error with
      | some m => exact Spec.pure (.refused rfl (by simp) rfl)
      | none =>
          dsimp only
          cases validatePasswordShape password with
          | some m => exact Spec.pure (.refused rfl (by simp) rfl)
          | none => exact connectScanned_spec E (encodable_of_validateSsid hssid)

/-- **Every run** of `connect_wifi` is an attempt. -/
theorem attempt_of_run {E : Env} {ssid password : PyStr} {res : Except PyExc (Bool × String)}
    {journal : List Entry} (h : (connectWifi E ssid password).run = (res, journal)) :
    Attempt E ssid password res journal := by
  have hspec := (connectWifi_spec E ssid password).run
  rw [h] at hspec
  exact hspec

end SushidaOs
