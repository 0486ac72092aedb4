import SushidaOs.Wifi.Connect

/-!
# SushidaOs.Wifi.Contract

The contract of `connect_wifi`, for every credential and every system.

`StagesSucceeded` says of a journal that every stage of the chain was issued
and succeeded.  The staged contract relates it to the answer, to the
commands that were issued and to `setup.json`; the second part is about the
profile that NetworkManager is left with, where a command may have taken
effect whatever was reported.
-/

namespace SushidaOs

/-! ## stages in a journal -/

/-- The changing commands, in order. -/
def changingCommands (journal : List Entry) : List Command :=
  journal.filterMap fun e => match e with
    | .nmcli c _ _ => if c.changing then some c else none
    | _ => none

/-- The command was issued and exited with zero. -/
def Succeeded (journal : List Entry) (c : Command) : Prop :=
  ∃ r a, Entry.nmcli c r a ∈ journal ∧ r.ok = true

/-- The old profile was deleted or reported absent. -/
def OldProfileGone (journal : List Entry) : Prop :=
  ∃ r a, Entry.nmcli .deleteProfile r a ∈ journal ∧ (r.ok = true ∨ ReportedAbsent journal)

/-- The autoconnect check was issued and its answer accepted. -/
def AutoconnectVerified (journal : List Entry) (mode : SecurityMode) : Prop :=
  ∃ r a, Entry.nmcli (.profileFields mode) r a ∈ journal ∧ r.verified mode = true

/-- The stages after `connection add`. -/
def LateStagesSucceeded (journal : List Entry) (mode : SecurityMode) : Prop :=
  Succeeded journal (.modifyProfile mode) ∧ (∃ fd, Succeeded journal (.up fd)) ∧
    AutoconnectVerified journal mode

/-- Every stage of the chain. -/
def StagesSucceeded (journal : List Entry) (ssid : PyStr) (mode : SecurityMode) : Prop :=
  Succeeded journal .radioOn ∧ OldProfileGone journal ∧ Succeeded journal (.addProfile ssid) ∧
    LateStagesSucceeded journal mode

/-- Changing commands are steps. -/
theorem changingCommands_steps (journal : List Entry) :
    changingCommands (steps journal) = changingCommands journal := by
  unfold changingCommands steps
  rw [List.filterMap_filter]
  congr 1
  funext e
  cases e with
  | nmcli c r a => cases c <;> rfl
  | file op ok => cases op <;> cases ok <;> rfl
  | _ => rfl

theorem changingCommands_append (t u : List Entry) :
    changingCommands (t ++ u) = changingCommands t ++ changingCommands u :=
  List.filterMap_append

theorem profileAfter_append (present : Bool) (t u : List Entry) :
    profileAfter present (t ++ u) = profileAfter (profileAfter present t) u := by
  induction t generalizing present with
  | nil => rfl
  | cons e rest ih =>
      cases e with
      | nmcli c r a => cases c <;> cases a <;> exact ih _
      | _ => exact ih _

/-- Commands do not touch `setup.json`. -/
theorem setupJson_of_nmcli {journal : List Entry} (content : Option (List UInt8))
    (h : ∀ e ∈ steps journal, ∃ c r a, e = .nmcli c r a) :
    setupJson content journal = content := by
  rw [← setupJson_steps]
  generalize steps journal = t at h
  induction t with
  | nil => rfl
  | cons e rest ih =>
      obtain ⟨c, r, a, rfl⟩ := h e List.mem_cons_self
      exact ih fun e he => h e (List.mem_cons_of_mem _ he)

/-! ## what an answer says about the steps -/

namespace LateStep

theorem nmcli {mode : SecurityMode} {e : Entry} (h : LateStep mode e) :
    ∃ c r a, e = .nmcli c r a := by
  rcases h with ⟨r, a, rfl⟩ | ⟨fd, r, a, rfl⟩ | ⟨r, a, rfl, -⟩
  · exact ⟨_, _, _, rfl⟩
  · exact ⟨_, _, _, rfl⟩
  · exact ⟨_, _, _, rfl⟩

theorem ne_addProfile {mode : SecurityMode} {ssid : PyStr} {r : Report} {a : Bool} :
    ¬ LateStep mode (.nmcli (.addProfile ssid) r a) := by
  simp [LateStep]

theorem not_verified {mode mode' : SecurityMode} {r : Report} {a : Bool}
    (h : LateStep mode (.nmcli (.profileFields mode') r a)) : r.verified mode' = false := by
  rcases h with ⟨_, _, h⟩ | ⟨_, _, _, h⟩ | ⟨r', a', h, hr⟩
  · simp at h
  · simp at h
  · simp only [Entry.nmcli.injEq, Command.profileFields.injEq] at h
    obtain ⟨rfl, rfl, -⟩ := h
    exact hr

end LateStep

/-- A step before `connection add`. -/
def EarlyStep (e : Entry) : Prop := ∃ r a, e = .nmcli .radioOn r a ∨ e = .nmcli .deleteProfile r a

namespace EarlyStep

theorem nmcli {e : Entry} (h : EarlyStep e) : ∃ c r a, e = .nmcli c r a := by
  obtain ⟨r, a, rfl | rfl⟩ := h
  · exact ⟨_, _, _, rfl⟩
  · exact ⟨_, _, _, rfl⟩

theorem ne_addProfile {ssid : PyStr} {r : Report} {a : Bool} :
    ¬ EarlyStep (.nmcli (.addProfile ssid) r a) := by
  simp [EarlyStep]

theorem ne_profileFields {mode : SecurityMode} {r : Report} {a : Bool} :
    ¬ EarlyStep (.nmcli (.profileFields mode) r a) := by
  simp [EarlyStep]

end EarlyStep

/-- The steps of a call that answers `False`. -/
inductive FailedSteps (ssid : PyStr) (mode : SecurityMode) : List Entry → Prop
  | early {before : List Entry} (h : ∀ e ∈ before, EarlyStep e) : FailedSteps ssid mode before
  | addFailed {before : List Entry} (r : Report) (a : Bool) (h : ∀ e ∈ before, EarlyStep e)
      (hr : r.ok = false) : FailedSteps ssid mode (before ++ [Entry.nmcli (.addProfile ssid) r a])
  | cleanedUp {before late : List Entry} (r r' : Report) (a a' : Bool)
      (h : ∀ e ∈ before, EarlyStep e) (hr : r.ok = true) (hlate : ∀ e ∈ late, LateStep mode e) :
      FailedSteps ssid mode (before ++
        Entry.nmcli (.addProfile ssid) r a :: (late ++ [Entry.nmcli .deleteProfile r' a']))

theorem Attempt.failedSteps {E : Env} {ssid password : PyStr} {m : String}
    {journal : List Entry} (h : Attempt E ssid password (.ok (false, m)) journal) :
    ∃ mode, FailedSteps ssid mode (steps journal) := by
  cases h with
  | refused hsteps hres => exact ⟨.openNetwork, by rw [hsteps]; exact .early (by simp)⟩
  | @scanned t mode report a hadm hchange =>
      refine ⟨mode, ?_⟩
      show FailedSteps ssid mode (steps t)
      cases hchange with
      | stopped hearly => exact .early hearly
      | created r₁ r₂ a₁ a₂ ht h₁ h₂ hread hcreation =>
          have hbefore : ∀ e ∈ [Entry.nmcli .radioOn r₁ a₁, .nmcli .deleteProfile r₂ a₂],
              EarlyStep e := by
            intro e he
            simp only [List.mem_cons, List.not_mem_nil, or_false] at he
            cases he with
            | inl h => exact ⟨r₁, a₁, .inl h⟩
            | inr h => exact ⟨r₂, a₂, .inr h⟩
          rw [steps_append, ht]
          cases hcreation with
          | addFailed r a hu hr => rw [hu]; exact .addFailed r a hbefore hr
          | cleanedUp r r' a a' late hu hr hlate =>
              rw [hu]; exact .cleanedUp r r' a a' hbefore hr hlate
          | connected r a u v hu hr hprov hsaved hread =>
              obtain ⟨⟨m', hm'⟩, -⟩ | ⟨e, he, -⟩ := hsaved.2
              · simp at hm'
              · simp at he

namespace FailedSteps

/-- Only commands. -/
theorem nmcli {ssid : PyStr} {mode : SecurityMode} {s : List Entry}
    (h : FailedSteps ssid mode s) : ∀ e ∈ s, ∃ c r a, e = .nmcli c r a := by
  intro e he
  cases h with
  | early hearly => exact (hearly e he).nmcli
  | addFailed r a hearly hr =>
      cases List.mem_append.mp he with
      | inl h => exact (hearly e h).nmcli
      | inr h => exact ⟨_, _, _, List.mem_singleton.mp h⟩
  | cleanedUp r r' a a' hearly hr hlate =>
      simp only [List.mem_append, List.mem_cons, List.not_mem_nil, or_false] at he
      rcases he with h | h | h | h
      · exact (hearly e h).nmcli
      · exact ⟨_, _, _, h⟩
      · exact (hlate e h).nmcli
      · exact ⟨_, _, _, h⟩

/-- No check that was passed. -/
theorem not_verified {ssid : PyStr} {mode mode' : SecurityMode} {s : List Entry} {r : Report}
    {a : Bool} (h : FailedSteps ssid mode s) (hmem : Entry.nmcli (.profileFields mode') r a ∈ s) :
    r.verified mode' = false := by
  cases h with
  | early hearly => exact absurd (hearly _ hmem) EarlyStep.ne_profileFields
  | addFailed r a hearly hr =>
      simp only [List.mem_append, List.mem_singleton, Entry.nmcli.injEq, reduceCtorEq, false_and,
        or_false] at hmem
      exact absurd (hearly _ hmem) EarlyStep.ne_profileFields
  | cleanedUp r r' a a' hearly hr hlate =>
      simp only [List.mem_append, List.mem_cons, List.not_mem_nil, Entry.nmcli.injEq,
        reduceCtorEq, false_and, false_or, or_false] at hmem
      cases hmem with
      | inl h => exact absurd (hearly _ h) EarlyStep.ne_profileFields
      | inr h => exact (hlate _ h).not_verified

/-- After a successful `connection add` the last step is the delete of the
clean-up. -/
theorem getLast_of_added {ssid : PyStr} {mode : SecurityMode} {s : List Entry} {r : Report}
    {a : Bool} (h : FailedSteps ssid mode s) (hmem : Entry.nmcli (.addProfile ssid) r a ∈ s)
    (hr : r.ok = true) : (changingCommands s).getLast? = some .deleteProfile := by
  cases h with
  | early hearly => exact absurd (hearly _ hmem) EarlyStep.ne_addProfile
  | addFailed r' a' hearly hr' =>
      cases List.mem_append.mp hmem with
      | inl h => exact absurd (hearly _ h) EarlyStep.ne_addProfile
      | inr h =>
          simp only [List.mem_singleton, Entry.nmcli.injEq, true_and] at h
          rw [h.1, hr'] at hr
          contradiction
  | @cleanedUp before late r r' a a' hearly hr' hlate =>
      rw [← List.cons_append, ← List.append_assoc, changingCommands_append]
      exact List.getLast?_concat

end FailedSteps

/-- A call that answers `False` has not come to the storage. -/
theorem Attempt.unprobed {E : Env} {ssid password : PyStr} {m : String} {journal : List Entry}
    (h : Attempt E ssid password (.ok (false, m)) journal) : storageReads journal = [] := by
  cases h with
  | refused hsteps hres hread => exact hread
  | @scanned t mode report a hadm hchange =>
      show storageReads t = []
      cases hchange with
      | stopped hearly hread => exact hread
      | created r₁ r₂ a₁ a₂ ht h₁ h₂ hread hcreation =>
          rw [storageReads_append, hread, List.nil_append]
          cases hcreation with
          | addFailed r a hu hr hread' => exact hread'
          | cleanedUp r r' a a' late hu hr hlate hread' => exact hread'
          | connected r a u v hu hr hprov hsaved hread' =>
              obtain ⟨⟨m', hm'⟩, -⟩ | ⟨e, he, -⟩ := hsaved.2
              · simp at hm'
              · simp at he

/-- A call that does not answer `False` made no step, or every stage
succeeded. -/
theorem Attempt.stagesSucceeded {E : Env} {ssid password : PyStr}
    {res : Except PyExc (Bool × String)} {journal : List Entry}
    (h : Attempt E ssid password res journal) (hres : ∀ m, res ≠ .ok (false, m)) :
    (steps journal = [] ∧ storageReads journal = [] ∧ ∀ m, res ≠ .ok (true, m)) ∨
      ((∃ mode, StagesSucceeded journal ssid mode) ∧
        ((∃ m, res = .ok (true, m)) ∧ Readable journal ∨
          ∃ e, res = .error e ∧ ProbeRaised E.uid e journal)) := by
  cases h with
  | refused hsteps htrue hread => exact .inl ⟨hsteps, hread, htrue⟩
  | @scanned t mode report a' hadm hchange =>
      refine .inr ?_
      cases hchange with
      | stopped => exact absurd rfl (hres _)
      | @created _ t u r₁ r₂ a₁ a₂ ht h₁ h₂ hread hcreation =>
          cases hcreation with
          | addFailed => exact absurd rfl (hres _)
          | cleanedUp => exact absurd rfl (hres _)
          | connected r a v w hu hr hprov hsaved hread' =>
              cases hprov with
              | done p₁ p₂ p₃ b₁ b₂ b₃ fd hv hp₁ hp₂ hp₃ =>
                  -- every step is in the journal
                  have hin : ∀ e, e ∈ steps t ∨ e ∈ steps u → e ∈ Entry.nmcli .scan report a' ::
                      (t ++ u) := by
                    intro e he
                    refine List.mem_cons_of_mem _ (List.mem_append.mpr ?_)
                    exact he.imp mem_of_mem_steps mem_of_mem_steps
                  rw [ht, hu, hv] at hin
                  have habsent : ReportedAbsent t →
                      ReportedAbsent (Entry.nmcli .scan report a' :: (t ++ u)) := by
                    rintro ⟨q, b, hq, habsent⟩
                    exact ⟨q, b, List.mem_cons_of_mem _ (List.mem_append_left u hq), habsent⟩
                  -- what is read is read at the end
                  have hreads : storageReads (Entry.nmcli .scan report a' :: (t ++ u)) =
                      storageReads w := by
                    show storageReads (t ++ u) = storageReads w
                    rw [storageReads_append, hread, hread', List.nil_append]
                  constructor
                  · refine ⟨mode, ?_, ?_, ?_, ?_, ?_, ?_⟩
                    · exact ⟨r₁, a₁, hin _ (by simp), h₁⟩
                    · exact ⟨r₂, a₂, hin _ (by simp), h₂.imp_right habsent⟩
                    · exact ⟨r, a, hin _ (by simp), hr⟩
                    · exact ⟨p₁, b₁, hin _ (by simp), hp₁⟩
                    · exact ⟨fd, p₂, b₂, hin _ (by simp), hp₂⟩
                    · exact ⟨p₃, b₃, hin _ (by simp), hp₃⟩
                  · simp only [Readable, ProbeRaised, hreads]
                    exact hsaved.2

/-! ## the staged contract -/

/-- The staged connect contract, of one call with its answer and its journal. -/
structure StagedContract (U : UnicodeData) (ssid password : PyStr)
    (res : Except PyExc (Bool × String)) (journal : List Entry) : Prop where
  /-- A changing command is issued only after the scan of the call has found the SSID with
  a security the password goes with. -/
  admitted : changingCommands journal ≠ [] → ∃ mode report a rest,
    journal = .nmcli .scan report a :: rest ∧ Admitted U ssid password mode report
  /-- The answer is `True` exactly when every stage succeeded. -/
  answered : (∃ m, res = .ok (true, m)) ↔ ∃ mode, StagesSucceeded journal ssid mode
  /-- An answer `False` leaves `setup.json` as it was. -/
  unsaved : ∀ m content, res = .ok (false, m) → setupJson content journal = content
  /-- When `connection add` succeeded and a later stage did not, the last changing
  command is the delete of the profile. -/
  cleaned : Succeeded journal (.addProfile ssid) → (¬ ∃ mode, LateStagesSucceeded journal mode) →
    (changingCommands journal).getLast? = some .deleteProfile

/-- A call that answers `False` has not passed every stage. -/
theorem Attempt.not_stagesSucceeded {E : Env} {ssid password : PyStr} {m : String}
    {journal : List Entry} (h : Attempt E ssid password (.ok (false, m)) journal) :
    ¬ ∃ mode, StagesSucceeded journal ssid mode := by
  rintro ⟨mode, -, -, -, -, -, r, a, hmem, hverified⟩
  obtain ⟨mode', hfailed⟩ := h.failedSteps
  have hnot := hfailed.not_verified (mem_steps hmem rfl)
  rw [hverified] at hnot
  contradiction

/-- Without steps no stage has succeeded. -/
theorem not_stagesSucceeded_of_steps {journal : List Entry} {ssid : PyStr}
    (h : steps journal = []) : ¬ ∃ mode, StagesSucceeded journal ssid mode := by
  rintro ⟨mode, -, -, -, -, -, r, a, hmem, -⟩
  have hstep := mem_steps hmem rfl
  rw [h] at hstep
  contradiction

/-- The part of the contract about the answer fails where the storage probe raises. -/
theorem Attempt.settled_iff {E : Env} {ssid password : PyStr}
    {res : Except PyExc (Bool × String)} {journal : List Entry}
    (h : Attempt E ssid password res journal) :
    ((∃ m, res = .ok (true, m)) ↔ ∃ mode, StagesSucceeded journal ssid mode) ↔
      Readable journal := by
  by_cases hres : ∃ m, res = .ok (false, m)
  · obtain ⟨m, rfl⟩ := hres
    refine iff_of_true (iff_of_false ?_ h.not_stagesSucceeded) (.of_unprobed h.unprobed)
    rintro ⟨m', hm'⟩
    simp at hm'
  · rcases h.stagesSucceeded fun m hm => hres ⟨m, hm⟩ with
      ⟨hsteps, hread, htrue⟩ | ⟨hstages, ⟨htrue, hread⟩ | ⟨e, rfl, hraised⟩⟩
    · refine iff_of_true (iff_of_false ?_ (not_stagesSucceeded_of_steps hsteps))
        (.of_unprobed hread)
      rintro ⟨m, hm⟩
      exact htrue m hm
    · exact iff_of_true (iff_of_true htrue hstages) hread
    · refine iff_of_false (fun hiff => ?_) hraised.not_readable
      obtain ⟨m, hm⟩ := hiff.mpr hstages
      simp at hm

/-- **Staged connect chain**, for every credential and every system: the contract holds
of a call exactly if no status file that the call reads fails to decode.  Otherwise every
stage has succeeded, and the call raises. -/
theorem staged_connect_contract_iff {E : Env} {ssid password : PyStr}
    {res : Except PyExc (Bool × String)} {journal : List Entry}
    (h : (connectWifi E ssid password).run = (res, journal)) :
    StagedContract E.unicode ssid password res journal ↔ Readable journal := by
  have hattempt := attempt_of_run h
  refine ⟨fun hcontract => hattempt.settled_iff.mp hcontract.answered, fun hread =>
    ⟨?_, hattempt.settled_iff.mpr hread, ?_, ?_⟩⟩
  · intro hchanging
    cases hattempt with
    | refused hsteps =>
        rw [← changingCommands_steps, hsteps] at hchanging
        contradiction
    | scanned mode report a hadm hchange => exact ⟨mode, report, a, _, rfl, hadm⟩
  · rintro m content rfl
    obtain ⟨mode, hfailed⟩ := hattempt.failedSteps
    exact setupJson_of_nmcli content hfailed.nmcli
  · rintro ⟨r, a, hmem, hr⟩ hlate
    have hstep : Entry.nmcli (.addProfile ssid) r a ∈ steps journal := mem_steps hmem rfl
    by_cases hres : ∃ m, res = .ok (false, m)
    · obtain ⟨m, rfl⟩ := hres
      obtain ⟨mode, hfailed⟩ := hattempt.failedSteps
      rw [← changingCommands_steps]
      exact hfailed.getLast_of_added hstep hr
    · have hor := hattempt.stagesSucceeded fun m hm => hres ⟨m, hm⟩
      cases hor with
      | inl hrefused => rw [hrefused.1] at hstep; contradiction
      | inr hstages =>
          obtain ⟨⟨mode, -, -, -, hlate'⟩, -⟩ := hstages
          exact absurd ⟨mode, hlate'⟩ hlate

/-- A system with one open network, where every command succeeds except that
`connection add` and `connection up` end as given; nothing can be stored. -/
def openNetworkEnv (added activated : Report × Bool) : Env where
  unicode := .ascii
  uid := 1000
  nmcli _ args _ :=
    if args = Command.scan.args then (.completed 0 (.lit "Net:80:--"), false)
    else if args.contains (.lit "add") then added
    else if args.contains (.lit "up") then activated
    else if args.contains (.lit "show") then
      (.completed 0 (.lit "connection.autoconnect:yes"), false)
    else (.completed 0 [], true)
  passwdOpen _ _ := none
  passwdClose _ := true
  storage _ := ⟨none, none, none, none, .osError⟩
  file _ _ := false

/-- Every stage succeeds, the status file is missing, and the answer is `True`. -/
theorem staged_connect_open_network :
    ∃ E ssid res journal m, (connectWifi E ssid []).run = (res, journal) ∧ res = .ok (true, m) ∧
      StagedContract E.unicode ssid [] res journal ∧
      ∃ mode, StagesSucceeded journal ssid mode := by
  let E := openNetworkEnv (.completed 0 [], true) (.completed 0 [], true)
  have hanswer : (connectWifi E (.lit "Net") []).run.1 =
      .ok (true, "接続しました。この接続は再起動後には保存されません。") := rfl
  have hreads : storageReads (connectWifi E (.lit "Net") []).run.2 =
      [⟨none, none, none, none, .osError⟩] := rfl
  cases hrun : (connectWifi E (.lit "Net") []).run with
  | mk res journal =>
      rw [hrun] at hanswer hreads
      have hread : Readable journal := by
        intro v hv
        rw [hreads, List.mem_singleton] at hv
        simp [hv, StorageView.Undecodable]
      have hcontract := (staged_connect_contract_iff hrun).mpr hread
      exact ⟨E, .lit "Net", res, journal, _, hrun, hanswer, hcontract,
        hcontract.answered.mp ⟨_, hanswer⟩⟩

/-- The same system with a status file that is not UTF-8. -/
def undecodableEnv : Env :=
  { openNetworkEnv (.completed 0 [], true) (.completed 0 [], true) with
    storage := fun _ => ⟨some true, some ⟨true, false, 0o644, 0⟩, some ⟨false, true, 0o700, 1000⟩,
      some false, .undecodable⟩ }

/-- Every stage succeeds, and there is no answer. -/
theorem undecodable_status_raises :
    ∃ res journal, (connectWifi undecodableEnv (.lit "Net") []).run = (res, journal) ∧
      res = .error .unicodeDecodeError ∧
      ¬ StagedContract undecodableEnv.unicode (.lit "Net") [] res journal := by
  have hanswer : (connectWifi undecodableEnv (.lit "Net") []).run.1 =
      .error .unicodeDecodeError := rfl
  have hreads : storageReads (connectWifi undecodableEnv (.lit "Net") []).run.2 =
      [undecodableEnv.storage []] := rfl
  cases hrun : (connectWifi undecodableEnv (.lit "Net") []).run with
  | mk res journal =>
      rw [hrun] at hanswer hreads
      refine ⟨res, journal, rfl, hanswer, fun hcontract => ?_⟩
      have hread := (attempt_of_run hrun).settled_iff.mp hcontract.answered
      refine hread (undecodableEnv.storage []) (by rw [hreads]; exact List.mem_cons_self) ?_
      exact ⟨rfl, rfl, rfl, rfl, _, rfl, rfl, rfl, rfl⟩

/-! ## the profile that is left -/

/-- A changing command that exits with zero has taken effect, and so has the
delete of the clean-up, the one after `connection add`. -/
structure EffectsReported (journal : List Entry) : Prop where
  success : ∀ c r a, Entry.nmcli c r a ∈ journal → c.changing = true → r.ok = true → a = true
  cleanup : ∀ (before after : List Entry) (r r' : Report) (a a' : Bool) (ssid : PyStr),
    journal = before ++ Entry.nmcli .deleteProfile r a :: after →
    Entry.nmcli (.addProfile ssid) r' a' ∈ before → a = true

/-- `connection add` was issued. -/
def AddIssued (journal : List Entry) : Prop :=
  ∃ ssid r a, Entry.nmcli (.addProfile ssid) r a ∈ journal

/-- `connection add` was reported to have failed, and it has taken effect all
the same or a profile of that name was there already. -/
def AddFailedOnProfile (present : Bool) (journal : List Entry) : Prop :=
  ∃ (before : List Entry) (ssid : PyStr) (r : Report) (a : Bool) (after : List Entry),
    journal = before ++ Entry.nmcli (.addProfile ssid) r a :: after ∧
    r.ok = false ∧ (a = true ∨ profileAfter present before = true)

/-- After an applied delete there is no profile. -/
theorem profileAfter_delete (present : Bool) (t : List Entry) (r : Report) :
    profileAfter present (t ++ [Entry.nmcli .deleteProfile r true]) = false := by
  rw [profileAfter_append]
  rfl

/-- After an add there is a profile if it was applied or one was there. -/
theorem profileAfter_add (present : Bool) (t : List Entry) (ssid : PyStr) (r : Report)
    (a : Bool) : profileAfter present (t ++ [Entry.nmcli (.addProfile ssid) r a]) =
      (a || profileAfter present t) := by
  rw [profileAfter_append]
  cases a <;> rfl

/-- A step splits the journal where it splits the steps. -/
theorem exists_split_of_steps {journal s u : List Entry} {e : Entry}
    (h : steps journal = s ++ e :: u) :
    ∃ before after, journal = before ++ e :: after ∧ steps before = s ∧ steps after = u := by
  obtain ⟨before, rest, hjournal, hbefore, hrest⟩ := List.filter_eq_append_iff.mp h
  obtain ⟨quiet, after, hsplit, hquiet, -, hafter⟩ := List.filter_eq_cons_iff.mp hrest
  refine ⟨before ++ quiet, after, ?_, ?_, hafter⟩
  · rw [hjournal, hsplit, List.append_assoc]
  · have hnone : steps quiet = [] := List.filter_eq_nil_iff.mpr hquiet
    rw [steps_append, hnone, List.append_nil]
    exact hbefore

/-- A call that does not answer `False` has no failed add. -/
theorem Attempt.added_ok {E : Env} {ssid password ssid' : PyStr}
    {res : Except PyExc (Bool × String)} {journal : List Entry} {r : Report} {a : Bool}
    (h : Attempt E ssid password res journal) (hres : ∀ m, res ≠ .ok (false, m))
    (hmem : Entry.nmcli (.addProfile ssid') r a ∈ steps journal) : r.ok = true := by
  cases h with
  | refused hsteps htrue => rw [hsteps] at hmem; contradiction
  | @scanned t mode report b hadm hchange =>
      have hstep : Entry.nmcli (.addProfile ssid') r a ∈ steps t := hmem
      cases hchange with
      | stopped => exact absurd rfl (hres _)
      | created r₁ r₂ a₁ a₂ ht h₁ h₂ hread hcreation =>
          cases hcreation with
          | addFailed => exact absurd rfl (hres _)
          | cleanedUp => exact absurd rfl (hres _)
          | connected r' a' v w hu hr hprov hsaved hin =>
              cases hprov with
              | done p₁ p₂ p₃ b₁ b₂ b₃ fd hv =>
                  rw [steps_append, ht, hu, hv] at hstep
                  simp only [List.cons_append, List.nil_append, List.mem_cons, Entry.nmcli.injEq,
                    reduceCtorEq, false_and, false_or, Command.addProfile.injEq] at hstep
                  cases hstep with
                  | inl hadd => rw [hadd.2.1]; exact hr
                  | inr hreplaced =>
                      obtain ⟨payload, hfile⟩ := hsaved.1 _ hreplaced
                      contradiction

/-- An element is found where the list without it ends. -/
theorem append_singleton_split {s b c : List Entry} {x y : Entry} (h : s ++ [x] = b ++ y :: c)
    (hy : y ∉ s) : b = s ∧ y = x := by
  cases List.append_eq_append_iff.mp h with
  | inl hlong =>
      obtain ⟨mid, hb, hx⟩ := hlong
      cases mid with
      | nil =>
          simp only [List.nil_append, List.cons.injEq] at hx
          exact ⟨by rw [hb, List.append_nil], hx.1.symm⟩
      | cons z mid => simp at hx
  | inr hshort =>
      obtain ⟨mid, hs, hc⟩ := hshort
      cases mid with
      | nil =>
          simp only [List.nil_append, List.cons.injEq] at hc
          exact ⟨by rw [hs, List.append_nil], hc.1⟩
      | cons z mid =>
          simp only [List.cons_append, List.cons.injEq] at hc
          exact absurd (by rw [hs, hc.1]; simp) hy

/-- A failed call after a failed add: the profile is there if the add was
applied or the profile was there before. -/
theorem addFailedOnProfile_iff {present : Bool} {journal before : List Entry} {ssid : PyStr}
    {r : Report} {a : Bool}
    (hsteps : steps journal = before ++ [Entry.nmcli (.addProfile ssid) r a])
    (hearly : ∀ e ∈ before, EarlyStep e) (hr : r.ok = false) :
    AddFailedOnProfile present journal ↔ profileAfter present journal = true := by
  have hafter : profileAfter present journal = (a || profileAfter present before) := by
    rw [← profileAfter_steps, hsteps, profileAfter_add]
  rw [hafter, Bool.or_eq_true]
  constructor
  · rintro ⟨b, ssid', r', a', c, hjournal, -, hprofile⟩
    have hsplit : before ++ [Entry.nmcli (.addProfile ssid) r a] =
        steps b ++ Entry.nmcli (.addProfile ssid') r' a' :: steps c := by
      rw [← hsteps, hjournal, steps_append]
      rfl
    obtain ⟨hb, he⟩ := append_singleton_split hsplit fun hmem =>
      EarlyStep.ne_addProfile (hearly _ hmem)
    simp only [Entry.nmcli.injEq] at he
    rw [← hb, profileAfter_steps, ← he.2.2]
    exact hprofile
  · intro hprofile
    obtain ⟨b, c, hjournal, hb, -⟩ := exists_split_of_steps hsteps
    refine ⟨b, ssid, r, a, c, hjournal, hr, ?_⟩
    rw [← profileAfter_steps, hb]
    exact hprofile

/-- The delete of the clean-up comes after the add, so it is applied. -/
theorem profileAfter_cleanedUp (present : Bool) {journal before late : List Entry} {ssid : PyStr}
    {r r' : Report} {a a' : Bool} (heff : EffectsReported journal)
    (hsteps : steps journal = before ++
      Entry.nmcli (.addProfile ssid) r a :: (late ++ [Entry.nmcli .deleteProfile r' a'])) :
    profileAfter present journal = false := by
  have hlast : steps journal = (before ++ Entry.nmcli (.addProfile ssid) r a :: late) ++
      [Entry.nmcli .deleteProfile r' a'] := by
    rw [hsteps]
    simp
  have happlied : a' = true := by
    obtain ⟨b, c, hjournal, hb, -⟩ := exists_split_of_steps hlast
    refine heff.cleanup b c r' r a' a ssid hjournal (mem_of_mem_steps ?_)
    rw [hb]
    simp
  rw [← profileAfter_steps, hlast, happlied]
  exact profileAfter_delete present _ r'

/-- **No half-made profile**, exactly: a call that answers `False` after issuing
`connection add` leaves no profile if and only if the add was not reported to
have failed while it took effect or found a profile.  (`present` is whether
there was a profile before the call.) -/
theorem no_half_made_profile_iff {E : Env} {ssid password : PyStr}
    {res : Except PyExc (Bool × String)} {journal : List Entry} (present : Bool)
    (h : (connectWifi E ssid password).run = (res, journal)) (heff : EffectsReported journal) :
    ((∃ m, res = .ok (false, m)) → AddIssued journal → profileAfter present journal = false) ↔
      ¬ AddFailedOnProfile present journal := by
  have hattempt := attempt_of_run h
  -- a failed add is a step
  have hstep : AddFailedOnProfile present journal →
      ∃ ssid' r a, Entry.nmcli (.addProfile ssid') r a ∈ steps journal ∧ r.ok = false := by
    rintro ⟨b, ssid', r, a, c, rfl, hr, -⟩
    exact ⟨ssid', r, a, mem_steps (by simp) rfl, hr⟩
  by_cases hres : ∃ m, res = .ok (false, m)
  · obtain ⟨m, rfl⟩ := hres
    obtain ⟨mode, hfailed⟩ := hattempt.failedSteps
    generalize hsteps : steps journal = s at hfailed hstep
    cases hfailed with
    | early hearly =>
        have hno : ∀ ssid' r a, Entry.nmcli (.addProfile ssid') r a ∉ s := fun ssid' r a hmem =>
          EarlyStep.ne_addProfile (hearly _ hmem)
        constructor
        · intro _ hbad
          obtain ⟨ssid', r, a, hmem, -⟩ := hstep hbad
          exact hno ssid' r a hmem
        · rintro _ _ ⟨ssid', r, a, hmem⟩
          exact absurd (hsteps ▸ mem_steps hmem rfl) (hno ssid' r a)
    | addFailed r a hearly hr =>
        rw [addFailedOnProfile_iff hsteps hearly hr]
        have hadd : AddIssued journal :=
          ⟨ssid, r, a, mem_of_mem_steps (by rw [hsteps]; simp)⟩
        simp [hadd]
    | @cleanedUp before late r r' a a' hearly hr hlate =>
        have hgone := profileAfter_cleanedUp present heff hsteps
        have hgood : ¬ AddFailedOnProfile present journal := by
          intro hbad
          obtain ⟨ssid', r'', a'', hmem, hr''⟩ := hstep hbad
          simp only [List.mem_append, List.mem_cons, List.not_mem_nil, Entry.nmcli.injEq,
            reduceCtorEq, false_and, or_false] at hmem
          rcases hmem with hb | hadd | hl
          · exact EarlyStep.ne_addProfile (hearly _ hb)
          · rw [hadd.2.1, hr] at hr''; contradiction
          · exact LateStep.ne_addProfile (hlate _ hl)
        simp [hgone, hgood]
  · have hgood : ¬ AddFailedOnProfile present journal := by
      intro hbad
      obtain ⟨ssid', r, a, hmem, hr⟩ := hstep hbad
      rw [hattempt.added_ok (fun m hm => hres ⟨m, hm⟩) hmem] at hr
      contradiction
    simp [hres, hgood]

/-- A changing command that exits with zero, and any delete, is applied. -/
def Entry.appliedIfDue : Entry → Bool
  | .nmcli c r a => !(c.changing && (r.ok || c = .deleteProfile)) || a
  | _ => true

theorem EffectsReported.of_all {journal : List Entry}
    (h : journal.all Entry.appliedIfDue = true) : EffectsReported journal where
  success c r a hmem hc hr := by
    have happlied := List.all_eq_true.mp h _ hmem
    simpa [Entry.appliedIfDue, hc, hr] using happlied
  cleanup before after r r' a a' ssid hjournal _ := by
    have hmem : Entry.nmcli .deleteProfile r a ∈ journal := by rw [hjournal]; simp
    have happlied := List.all_eq_true.mp h _ hmem
    simpa [Entry.appliedIfDue, Command.changing] using happlied

/-- The activation times out: the profile is deleted again. -/
theorem no_half_made_profile_after_timeout :
    ∃ E ssid res journal, (connectWifi E ssid []).run = (res, journal) ∧
      EffectsReported journal ∧ (∃ m, res = .ok (false, m)) ∧ AddIssued journal ∧
      profileAfter false journal = false := by
  let E := openNetworkEnv (.completed 0 [], true) (.timeoutExpired, true)
  have hanswer : (connectWifi E (.lit "Net") []).run.1 = .ok (false, failureMessage 3 none) := rfl
  have hjournal : (connectWifi E (.lit "Net") []).run.2 =
      [Entry.nmcli .scan (.completed 0 (.lit "Net:80:--")) false,
        .nmcli .radioOn (.completed 0 []) true, .nmcli .deleteProfile (.completed 0 []) true,
        .nmcli (.addProfile (.lit "Net")) (.completed 0 []) true,
        .nmcli (.modifyProfile .openNetwork) (.completed 0 []) true,
        .nmcli (.up none) .timeoutExpired true,
        .log "wifi-setup: stage=activation nmcli_exit=3 reason=0",
        .nmcli .deleteProfile (.completed 0 []) true] := by decide
  cases hrun : (connectWifi E (.lit "Net") []).run with
  | mk res journal =>
      rw [hrun] at hanswer hjournal
      simp only at hanswer hjournal
      have heff : EffectsReported journal := .of_all (by rw [hjournal]; decide)
      have hgood : ¬ AddFailedOnProfile false journal := by
        rintro ⟨before, ssid, r, a, after, hsplit, hr, -⟩
        have hmem : Entry.nmcli (.addProfile ssid) r a ∈ journal := by rw [hsplit]; simp
        simp only [hjournal, List.mem_cons, List.not_mem_nil, Entry.nmcli.injEq, reduceCtorEq,
          false_and, false_or, or_false] at hmem
        rw [hmem.2.1] at hr
        contradiction
      have hadd : AddIssued journal := ⟨.lit "Net", .completed 0 [], true, by simp [hjournal]⟩
      exact ⟨E, .lit "Net", res, journal, hrun, heff, ⟨_, hanswer⟩, hadd,
        (no_half_made_profile_iff false hrun heff).mpr hgood ⟨_, hanswer⟩ hadd⟩

/-- `connection add` times out but takes effect: the profile stays behind. -/
theorem half_made_profile_left :
    ∃ E ssid res journal, (connectWifi E ssid []).run = (res, journal) ∧
      EffectsReported journal ∧ (∃ m, res = .ok (false, m)) ∧ AddIssued journal ∧
      profileAfter false journal = true := by
  let E := openNetworkEnv (.timeoutExpired, true) (.completed 0 [], true)
  have hanswer : (connectWifi E (.lit "Net") []).run.1 = .ok (false, failureMessage 3 none) := rfl
  have hjournal : (connectWifi E (.lit "Net") []).run.2 =
      [Entry.nmcli .scan (.completed 0 (.lit "Net:80:--")) false,
        .nmcli .radioOn (.completed 0 []) true, .nmcli .deleteProfile (.completed 0 []) true,
        .nmcli (.addProfile (.lit "Net")) .timeoutExpired true,
        .log "wifi-setup: stage=profile-create nmcli_exit=3 reason=0"] := by decide
  cases hrun : (connectWifi E (.lit "Net") []).run with
  | mk res journal =>
      rw [hrun] at hanswer hjournal
      simp only at hanswer hjournal
      have heff : EffectsReported journal := .of_all (by rw [hjournal]; decide)
      have hadd : AddIssued journal := ⟨.lit "Net", .timeoutExpired, true, by simp [hjournal]⟩
      exact ⟨E, .lit "Net", res, journal, hrun, heff, ⟨_, hanswer⟩, hadd, by rw [hjournal]; rfl⟩

end SushidaOs
