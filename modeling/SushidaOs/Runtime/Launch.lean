import SushidaOs.Runtime.State

/-!
# SushidaOs.Runtime.Launch

The route selection of `sushida-launch`, from the force-offline check to the
publish step.

What the commands answer is given as a function of the second in which they
are called; a fixed environment is a constant function.  Config parsing, the
runtime directories and the session itself are not part of the selection.
-/

namespace SushidaOs

/-- The environment variables behind `FORCE_OFFLINE`; `none` is unset. -/
structure QemuMarkers where
  forceOffline : Option ShStr
  swiftshader : Option ShStr
  renderer : Option ShStr
  allowSoftware : Option ShStr
  deriving DecidableEq, Repr

/-- `${variable:-fallback}`. -/
def Sh.orDefault (value : Option ShStr) (fallback : ShStr) : ShStr :=
  match value with
  | none | some [] => fallback
  | some s => s

/-- `WLR_RENDERER` and `WLR_RENDERER_ALLOW_SOFTWARE` as QEMU sets them. -/
def QemuMarkers.software (q : QemuMarkers) : Bool :=
  Sh.orDefault q.renderer [] == Sh.lit "pixman" &&
    Sh.orDefault q.allowSoftware (Sh.lit "0") == Sh.lit "1"

/-- What both scripts see of the system. -/
structure Surroundings where
  qemu : QemuMarkers
  /-- `SUSHIDA_OS_RUNTIME`. -/
  runtimeDir : ShStr
  /-- `SUSHIDA_OS_TEST_MODE` is `1`. -/
  testMode : Bool
  /-- `nmcli -t -f STATE,CONNECTIVITY general`. -/
  nmcli : Completed
  /-- `systemctl -q is-active sushida-wifi-setup.service` exits with 0. -/
  setupActive : Bool
  /-- `timedatectl show -p NTPSynchronized --value`. -/
  timedatectl : Completed
  /-- The wall clock is not older than the image, nor five years newer. -/
  clockPlausible : Bool
  /-- `NETWORK_SETUP_GRACE_SECONDS`. -/
  graceSeconds : Nat
  /-- The marker of a Wi-Fi connection in progress exists. -/
  marker : Bool
  deriving DecidableEq, Repr

/-- `timedatectl show -p NTPSynchronized --value | grep -qx yes`. -/
def ntpSynchronized (timedatectl : Completed) : Bool := Sh.pipeGrep timedatectl (Sh.lit "yes")

/-- A directory other than the production one needs the test mode. -/
def Surroundings.directoryAccepted (w : Surroundings) : Bool :=
  w.runtimeDir == Sh.lit "/run/sushida-os" || w.testMode

/-- `runtime_state` of either script: the protocol module on the shared
directory. -/
def Surroundings.runtimeState (w : Surroundings) (ioOk : Bool) (args : List PyStr)
    (file : StateFile) : Completed × StateFile :=
  StateCli.main w.testMode ioOk (.lit "--directory" :: Sh.arg w.runtimeDir :: args) file

namespace Launch

/-- The `case` on `SUSHIDA_QEMU_FORCE_OFFLINE`; `none` is `exit 1`. -/
def forceOffline (q : QemuMarkers) : Option Bool :=
  let value := Sh.orDefault q.forceOffline (Sh.lit "0")
  if value = Sh.lit "0" then some false
  else if value = Sh.lit "1" then
    if Sh.orDefault q.swiftshader (Sh.lit "0") = Sh.lit "1" ∧ q.software = true then some true
    else none
  else none

/-- `network_is_online`. -/
def networkIsOnline (nmcli : Completed) : Bool :=
  let status := Sh.capture nmcli.output
  nmcli.status == 0 && Sh.beforeColon status == Sh.lit "connected" &&
    Sh.afterColon status == Sh.lit "full"

/-- The grace loop: one try, and one more in each second that is left. -/
def waitOnline (nmcli : Nat → Completed) (now : Nat) : Nat → Bool
  | 0 => networkIsOnline (nmcli now)
  | left + 1 => networkIsOnline (nmcli now) || waitOnline nmcli (now + 1) left

/-- The loop that waits for the clock, with `left` tries; the answer is
`_time_synced`. -/
def waitTimeSync (timedatectl : Nat → Completed) (clockOk : Bool) (now : Nat) : Nat → Bool
  | 0 => false
  | left + 1 =>
      if ntpSynchronized (timedatectl now) then true
      else if clockOk then false
      else waitTimeSync timedatectl clockOk (now + 1) left

/-- `ACTIVE_ROUTE` and `_time_sync_flag` at the publish step. -/
def selectRoute (w : Surroundings) (forced : Bool) : Route × Bool :=
  if forced then (.offline, false)
  else if waitOnline (fun _ => w.nmcli) 0 w.graceSeconds then
    if !waitTimeSync (fun _ => w.timedatectl) w.clockPlausible 0 30 && !w.clockPlausible then
      (.offline, true)
    else (.online, false)
  else if w.setupActive then (.setup, false)
  else (.offline, false)

/-- The arguments of the publish step after the directory. -/
def publishArgs (route : Route) (timeSyncFlag : Bool) : List PyStr :=
  [.lit "--route", route.name, .lit "--time-sync-required",
    if timeSyncFlag then .lit "1" else .lit "0", .lit "--reason", .lit "boot-route-selected"]

/-- The script up to its publish step; `none` when it ends before that, or when
the step fails. -/
def run (w : Surroundings) (ioOk : Bool) (file : StateFile) : Option StateFile :=
  if !w.directoryAccepted then none
  else match forceOffline w.qemu with
    | none => none
    | some forced =>
        let (route, timeSyncFlag) := selectRoute w forced
        let (result, published) := w.runtimeState ioOk (publishArgs route timeSyncFlag) file
        if result.status = 0 then some published else none

/-! ## what is published -/

/-- The state of a publish step. -/
def published (route : Route) (timeSyncFlag : Bool) : RuntimeState :=
  ⟨route.name, timeSyncFlag, false, .lit "boot-route-selected"⟩

theorem isValid_published (route : Route) (flag : Bool) :
    (published route flag).isValid = true := by
  have hreason : RuntimeState.isReason (.lit "boot-route-selected") = true := by decide
  rw [RuntimeState.isValid, published, Route.isRoute_name, hreason]
  rfl

theorem waitOnline_const (nmcli : Completed) (now left : Nat) :
    waitOnline (fun _ => nmcli) now left = networkIsOnline nmcli := by
  induction left generalizing now with
  | zero => rfl
  | succ left ih => rw [waitOnline, ih, Bool.or_self]

theorem waitTimeSync_const (timedatectl : Completed) (clockOk : Bool) (now left : Nat) :
    waitTimeSync (fun _ => timedatectl) clockOk now (left + 1) =
      ntpSynchronized timedatectl := by
  induction left generalizing now with
  | zero =>
      rw [waitTimeSync]
      cases ntpSynchronized timedatectl with
      | true => rfl
      | false =>
          cases clockOk with
          | true => rfl
          | false => rfl
  | succ left ih =>
      rw [waitTimeSync, ih]
      cases ntpSynchronized timedatectl with
      | true => rfl
      | false =>
          cases clockOk with
          | true => rfl
          | false => rfl

/-- The selection in a fixed environment. -/
theorem selectRoute_eq (w : Surroundings) (forced : Bool) :
    selectRoute w forced =
      if forced then (.offline, false)
      else if networkIsOnline w.nmcli then
        if !ntpSynchronized w.timedatectl && !w.clockPlausible then (.offline, true)
        else (.online, false)
      else if w.setupActive then (.setup, false)
      else (.offline, false) := by
  rw [selectRoute, waitOnline_const, waitTimeSync_const]

/-- A hold is published with the offline route only. -/
theorem route_of_hold {w : Surroundings} {forced : Bool} (h : (selectRoute w forced).2 = true) :
    (selectRoute w forced).1 = .offline := by
  rw [selectRoute_eq] at h ⊢
  split at h
  · contradiction
  split at h
  · split at h
    · next hforced honline hbad => rw [if_neg hforced, if_pos honline, if_pos hbad]
    · contradiction
  · split at h
    · contradiction
    · contradiction

end Launch

/-- The request that the arguments of a script make. -/
theorem Surroundings.runtimeState_eq {w : Surroundings} (hdir : w.directoryAccepted = true)
    {args : List PyStr} {r : StateCli.Request} (ioOk : Bool) (file : StateFile)
    (h : ∀ dir : PyStr, w.testMode = true ∨ dir = StateCli.prodRuntimeDir →
      StateCli.request w.testMode (.lit "--directory" :: dir :: args) = some r) :
    w.runtimeState ioOk args file = (r.plan (RuntimeState.read file)).run ioOk file := by
  have harg : w.testMode = true ∨ Sh.arg w.runtimeDir = StateCli.prodRuntimeDir := by
    rw [Surroundings.directoryAccepted, Bool.or_eq_true, beq_iff_eq] at hdir
    cases hdir with
    | inl hprod =>
        right
        rw [hprod]
        decide
    | inr htest => exact .inl htest
  rw [Surroundings.runtimeState, StateCli.main, h _ harg]

/-- The directory check of `main` passes where that of the scripts does. -/
theorem path_accepted {testMode : Bool} {dir : PyStr}
    (h : testMode = true ∨ dir = StateCli.prodRuntimeDir) :
    ¬ (StateCli.pathParts dir ≠ StateCli.pathParts StateCli.prodRuntimeDir ∧
      testMode = false) := by
  intro hbad
  cases h with
  | inl htest => rw [htest] at hbad; exact absurd hbad.2 (by decide)
  | inr hprod => exact hbad.1 (by rw [hprod])

namespace Launch

/-- The publish step asks for what was selected. -/
theorem request_publish (testMode : Bool) (route : Route) (flag : Bool) (dir : PyStr)
    (hdir : testMode = true ∨ dir = StateCli.prodRuntimeDir) :
    StateCli.request testMode (.lit "--directory" :: dir :: publishArgs route flag) =
      some (.write (published route flag)) := by
  have hparse : StateCli.parseArgs {} (.lit "--directory" :: dir :: publishArgs route flag) =
      some { directory := some dir, route := route.name, timeSyncRequired := flag,
             reason := .lit "boot-route-selected", writeFlagsSeen := true } := by
    cases flag with
    | true => rfl
    | false => rfl
  rw [StateCli.request, hparse]
  simp only [if_neg (path_accepted hdir)]
  rfl

/-- A script that gets through its publish step has published the route it
selected. -/
theorem run_eq_some {w : Surroundings} {ioOk : Bool} {file file' : StateFile}
    (h : run w ioOk file = some file') :
    w.directoryAccepted = true ∧ ∃ forced, forceOffline w.qemu = some forced ∧
      file' = .document (published (selectRoute w forced).1 (selectRoute w forced).2).document := by
  unfold run at h
  split at h
  · contradiction
  · next hdir =>
      have hdir' : w.directoryAccepted = true := by simpa using hdir
      split at h
      · contradiction
      · next forced hforced =>
          refine ⟨hdir', forced, hforced, ?_⟩
          cases hselect : selectRoute w forced with
          | mk route flag =>
          rw [hselect] at h
          simp only [Surroundings.runtimeState_eq hdir' ioOk file
            (request_publish w.testMode route flag), StateCli.Request.plan, StateCli.Plan.run,
            isValid_published, Bool.true_and] at h
          cases ioOk with
          | true => simpa using h.symm
          | false => simp at h

end Launch

end SushidaOs
