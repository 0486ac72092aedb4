import SushidaOs.Runtime.Launch

/-!
# SushidaOs.Runtime.NetworkWatch

One cycle of `sushida-network-watch`, and its agreement with the launcher.

The cycle asks the protocol module three or four times: to mirror the Wi-Fi
marker, for the time-sync hold, possibly to clear it, and for the active
route.  Whether a write succeeds is left open (`mirrorOk`, `clearOk`).
-/

namespace SushidaOs

namespace Watch

/-- The `case` on `SUSHIDA_QEMU_FORCE_OFFLINE`; `none` is `exit 1`. -/
def forceOffline (q : QemuMarkers) : Option Bool :=
  let value := Sh.orDefault q.forceOffline (Sh.lit "0")
  if value = Sh.lit "0" then some false
  else if value = Sh.lit "1" then if q.software then some true else none
  else none

/-- The arguments for the model from the observation of NetworkManager and the
setup service. -/
def observe (nmcli : Completed) (setupActive : Bool) : List PyStr :=
  let status := Sh.capture nmcli.output
  (if nmcli.status = 0 then
    [.lit "--nm-ok", .lit "--nm-state", Sh.arg (Sh.beforeColon status),
      .lit "--nm-connectivity", Sh.arg (Sh.afterColon status)] else []) ++
  if setupActive then [.lit "--setup-active"] else []

/-- `route=$(route_model ..) || route=""`, and the `case` after it. -/
def routeOf (modelArgs : List PyStr) : ShStr :=
  let result := Routes.main modelArgs
  let route := if result.status = 0 then Sh.capture result.output else []
  if route = Sh.lit "online" ∨ route = Sh.lit "setup" ∨ route = Sh.lit "offline" then route
  else Sh.lit "offline"

/-- `$(runtime_state --print time-sync-required) = 1`. -/
def holdRead (w : Surroundings) (file : StateFile) : Bool :=
  Sh.capture (w.runtimeState true [.lit "--print", .lit "time-sync-required"] file).1.output ==
    Sh.lit "1"

/-- `desired_route` after the hold was read, with the state file it leaves. -/
def routeAfterHold (w : Surroundings) (clearOk held : Bool) (file : StateFile) :
    ShStr × StateFile :=
  if held then
    if ntpSynchronized w.timedatectl then
      let (cleared, file') := w.runtimeState clearOk [.lit "--clear-time-sync"] file
      if cleared.status = 0 then (routeOf (observe w.nmcli w.setupActive), file')
      else (routeOf [.lit "--time-sync-pending"], file')
    else (routeOf [.lit "--time-sync-pending"], file)
  else (routeOf (observe w.nmcli w.setupActive), file)

/-- `desired_route`. -/
def desiredRoute (w : Surroundings) (forced clearOk : Bool) (file : StateFile) :
    ShStr × StateFile :=
  if forced then (routeOf [.lit "--force-offline"], file)
  else routeAfterHold w clearOk (holdRead w file) file

/-- `read_active_route`; `none` is a failure. -/
def readActiveRoute (w : Surroundings) (file : StateFile) : Option ShStr :=
  let result := (w.runtimeState true [.lit "--print", .lit "active-route"] file).1
  if result.status = 0 then
    let route := Sh.capture result.output
    if route = Sh.lit "online" ∨ route = Sh.lit "setup" ∨ route = Sh.lit "offline" then some route
    else none
  else none

/-- `runtime_state --set-connection-in-progress`, its status ignored. -/
def mirror (w : Surroundings) (mirrorOk : Bool) (file : StateFile) : StateFile :=
  (w.runtimeState mirrorOk [.lit "--set-connection-in-progress",
    if w.marker then .lit "1" else .lit "0"] file).2

/-- What one iteration of the main loop did. -/
structure Cycle where
  wanted : ShStr
  active : Option ShStr
  file : StateFile

/-- One iteration of the main loop. -/
def cycle (w : Surroundings) (forced mirrorOk clearOk : Bool) (file : StateFile) : Cycle :=
  let mirrored := mirror w mirrorOk file
  let (wanted, file') := desiredRoute w forced clearOk mirrored
  ⟨wanted, readActiveRoute w file', file'⟩

/-- `restart_kiosk` is called. -/
def Cycle.restarts (c : Cycle) : Bool :=
  match c.active with
  | some active => active != c.wanted
  | none => false

/-! ## the protocol module as the watcher calls it -/

section Calls

variable {w : Surroundings} (hdir : w.directoryAccepted = true)

include hdir

/-- `--print`. -/
theorem runtimeState_print (field : StateCli.Field) (value : PyStr)
    (hvalue : StateCli.parseField value = some field) (ioOk : Bool) (file : StateFile) :
    w.runtimeState ioOk [.lit "--print", value] file =
      ((StateCli.Request.print field).plan (RuntimeState.read file)).run ioOk file := by
  refine w.runtimeState_eq hdir ioOk file fun dir hok => ?_
  have hparse : StateCli.parseArgs {} [.lit "--directory", dir, .lit "--print", value] =
      some { directory := some dir, printField := some field } := by
    have hset : StateCli.setFlag { directory := some dir } (.lit "--print") value =
        some { directory := some dir, printField := some field } := by
      have hflag : StateCli.setFlag { directory := some dir } (.lit "--print") value =
          (StateCli.parseField value).map fun field =>
            { directory := some dir, printField := some field } := rfl
      rw [hflag, hvalue]
      rfl
    have hstep : StateCli.parseArgs {} [.lit "--directory", dir, .lit "--print", value] =
        StateCli.parseArgs { directory := some dir } [.lit "--print", value] := rfl
    rw [hstep, StateCli.parseArgs, if_neg (by decide), hset]
    rfl
  rw [StateCli.request, hparse]
  simp only [if_neg (path_accepted hok)]
  rfl

/-- `--set-connection-in-progress`. -/
theorem runtimeState_setProgress (v : Bool) (ioOk : Bool) (file : StateFile) :
    w.runtimeState ioOk [.lit "--set-connection-in-progress",
        if v then .lit "1" else .lit "0"] file =
      ((StateCli.Request.setProgress v).plan (RuntimeState.read file)).run ioOk file := by
  refine w.runtimeState_eq hdir ioOk file fun dir hok => ?_
  have hparse : StateCli.parseArgs {} [.lit "--directory", dir,
      .lit "--set-connection-in-progress", if v then .lit "1" else .lit "0"] =
      some { directory := some dir, setProgress := some v } := by
    cases v with
    | true => rfl
    | false => rfl
  rw [StateCli.request, hparse]
  simp only [if_neg (path_accepted hok)]
  rfl

end Calls

/-! ## the route model as the watcher calls it -/

/-- The name of a route as a word of the shell. -/
def word (r : Route) : ShStr := Utf8.asciiBytes r.name

/-- Printed and captured, the name of a route is its word. -/
theorem capture_name (r : Route) : Sh.capture (Sh.printLine r.name) = word r := by
  cases r <;> decide

theorem word_injective {r r' : Route} (h : word r = word r') : r = r' := by
  revert h
  cases r <;> cases r' <;> decide

theorem word_known (r : Route) :
    word r = Sh.lit "online" ∨ word r = Sh.lit "setup" ∨ word r = Sh.lit "offline" := by
  cases r with
  | online => exact .inl rfl
  | setup => exact .inr (.inl rfl)
  | offline => exact .inr (.inr rfl)

theorem routeOf_eq {modelArgs : List PyStr} {inputs : RouteInputs}
    (h : Routes.parseFlags {} modelArgs = some inputs) :
    routeOf modelArgs = word (Routes.decide inputs).route := by
  simp only [routeOf, Routes.main, h, if_true, capture_name, if_pos (word_known _)]

/-- What the model is told of an observation. -/
def observed (nmcli : Completed) (setupActive : Bool) : RouteInputs :=
  if nmcli.status = 0 then
    { nmOk := true, nmState := Sh.arg (Sh.beforeColon (Sh.capture nmcli.output)),
      nmConnectivity := Sh.arg (Sh.afterColon (Sh.capture nmcli.output)),
      setupServiceActive := setupActive }
  else { setupServiceActive := setupActive }

theorem parseFlags_observe (nmcli : Completed) (setupActive : Bool) :
    Routes.parseFlags {} (observe nmcli setupActive) = some (observed nmcli setupActive) := by
  by_cases hstatus : nmcli.status = 0
  · simp only [observe, observed, if_pos hstatus]
    cases setupActive with
    | true => rfl
    | false => rfl
  · simp only [observe, observed, if_neg hstatus]
    cases setupActive with
    | true => rfl
    | false => rfl

/-- The decision on an observation is the one of the launcher. -/
theorem decide_observed (nmcli : Completed) (setupActive : Bool) :
    (Routes.decide (observed nmcli setupActive)).route =
      if Launch.networkIsOnline nmcli then .online
      else if setupActive then .setup else .offline := by
  have hstate : ∀ s : ShStr, Sh.arg s = .lit "connected" ↔ s = Sh.lit "connected" := fun s =>
    Sh.arg_eq_lit_iff (PyStr.forall_of_all (by decide))
  have hconnectivity : ∀ s : ShStr, Sh.arg s = .lit "full" ↔ s = Sh.lit "full" := fun s =>
    Sh.arg_eq_lit_iff (PyStr.forall_of_all (by decide))
  unfold observed Launch.networkIsOnline
  by_cases hstatus : nmcli.status = 0
  · rw [if_pos hstatus]
    simp only [Routes.decide, Bool.false_eq_true, if_false, hstatus, hstate, hconnectivity,
      Bool.true_and, beq_self_eq_true, Bool.and_eq_true, decide_eq_true_eq, beq_iff_eq]
    split
    · rfl
    · split
      · rfl
      · rfl
  · have hne : (nmcli.status == 0) = false := by simpa using hstatus
    rw [if_neg hstatus, hne]
    simp only [Routes.decide, Bool.false_eq_true, if_false, Bool.false_and]
    split
    · rfl
    · rfl

/-- `desired_route` on an observation. -/
theorem routeOf_observe (nmcli : Completed) (setupActive : Bool) :
    routeOf (observe nmcli setupActive) =
      word (if Launch.networkIsOnline nmcli then .online
        else if setupActive then .setup else .offline) := by
  rw [routeOf_eq (parseFlags_observe nmcli setupActive), decide_observed]

/-! ## launcher and watcher -/

/-- The two scripts read the force-offline setting alike. -/
theorem forceOffline_agree {q : QemuMarkers} {forced forced' : Bool}
    (h : Launch.forceOffline q = some forced) (h' : forceOffline q = some forced') :
    forced = forced' := by
  unfold Launch.forceOffline at h
  unfold forceOffline at h'
  by_cases hzero : Sh.orDefault q.forceOffline (Sh.lit "0") = Sh.lit "0"
  · rw [if_pos hzero] at h h'
    rw [← Option.some.injEq, ← h, ← h']
  · rw [if_neg hzero] at h h'
    by_cases hone : Sh.orDefault q.forceOffline (Sh.lit "0") = Sh.lit "1"
    · rw [if_pos hone] at h h'
      split at h
      · split at h'
        · rw [← Option.some.injEq, ← h, ← h']
        · contradiction
      · contradiction
    · rw [if_neg hone] at h
      contradiction

section Reading

variable {w : Surroundings} (hdir : w.directoryAccepted = true)

include hdir

/-- The active route that is read is that of the state in the file. -/
theorem readActiveRoute_of_read {file : StateFile} {s : RuntimeState} {r : Route}
    (hs : RuntimeState.read file = .ok (some s)) (hr : s.activeRoute = r.name) :
    readActiveRoute w file = some (word r) := by
  have hprint := runtimeState_print hdir .activeRoute (.lit "active-route") rfl true file
  simp only [readActiveRoute, hprint, hs, StateCli.Request.plan, StateCli.Plan.run,
    StateCli.Field.text, hr, if_true, capture_name, if_pos (word_known r)]

theorem holdRead_of_read {file : StateFile} {s : RuntimeState}
    (hs : RuntimeState.read file = .ok (some s)) : holdRead w file = s.timeSyncRequired := by
  have hprint := runtimeState_print hdir .timeSyncRequired (.lit "time-sync-required") rfl true
    file
  simp only [holdRead, hprint, hs, StateCli.Request.plan, StateCli.Plan.run, StateCli.Field.text]
  cases s.timeSyncRequired with
  | true => decide
  | false => decide

/-- Without a state to read there is no hold. -/
theorem holdRead_eq_true {file : StateFile} (h : holdRead w file = true) :
    ∃ s : RuntimeState, RuntimeState.read file = .ok (some s) ∧ s.timeSyncRequired = true := by
  have hempty : (Sh.capture [] == Sh.lit "1") = false := by decide
  have hprint := runtimeState_print hdir .timeSyncRequired (.lit "time-sync-required") rfl true
    file
  cases hread : RuntimeState.read file with
  | error e =>
      simp only [holdRead, hprint, hread, StateCli.Request.plan, StateCli.Plan.run, hempty] at h
      contradiction
  | ok state =>
      cases state with
      | none =>
          simp only [holdRead, hprint, hread, StateCli.Request.plan, StateCli.Plan.run, hempty] at h
          contradiction
      | some s => exact ⟨s, rfl, by rw [← holdRead_of_read hdir hread]; exact h⟩

/-- Mirroring the marker changes nothing else. -/
theorem mirror_of_read {file : StateFile} {s : RuntimeState}
    (hs : RuntimeState.read file = .ok (some s)) (mirrorOk : Bool) :
    ∃ progress, RuntimeState.read (mirror w mirrorOk file) =
      .ok (some { s with connectionInProgress := progress }) := by
  have hvalid : s.isValid = true := RuntimeState.isValid_of_read hs
  rw [mirror, runtimeState_setProgress hdir, hs]
  simp only [StateCli.Request.plan]
  by_cases hsame : s.connectionInProgress = w.marker
  · rw [if_pos hsame]
    exact ⟨s.connectionInProgress, hs⟩
  · rw [if_neg hsame, StateCli.Plan.run]
    split
    · exact ⟨w.marker, RuntimeState.read_document
        (s := { s with connectionInProgress := w.marker }) hvalid⟩
    · exact ⟨s.connectionInProgress, hs⟩

/-- Mirroring the marker makes no state where there is none. -/
theorem read_of_mirror {file : StateFile} {s : RuntimeState} {mirrorOk : Bool}
    (hs : RuntimeState.read (mirror w mirrorOk file) = .ok (some s)) :
    ∃ progress, RuntimeState.read file =
      .ok (some { s with connectionInProgress := progress }) := by
  have hsame : RuntimeState.read file ≠ .ok (some s) →
      (∀ t, RuntimeState.read file ≠ .ok (some t)) → False := by
    intro hne hnone
    rw [mirror, runtimeState_setProgress hdir] at hs
    cases hread : RuntimeState.read file with
    | error e =>
        rw [hread] at hs
        exact hne hs
    | ok state =>
        cases state with
        | none =>
            rw [hread] at hs
            exact hne hs
        | some t => exact hnone t hread
  cases hread : RuntimeState.read file with
  | error e => exact absurd hsame (by simp [hread])
  | ok state =>
      cases state with
      | none => exact absurd hsame (by simp [hread])
      | some t =>
          obtain ⟨progress, hmirror⟩ := mirror_of_read hdir hread mirrorOk
          rw [hs, Except.ok.injEq, Option.some.injEq] at hmirror
          refine ⟨t.connectionInProgress, ?_⟩
          rw [hmirror]

end Reading

/-- With the hold that the launcher has published, the watcher computes the
route that the launcher selected. -/
theorem desiredRoute_of_selected {w : Surroundings} {forced : Bool} {file : StateFile}
    (hhold : holdRead w file = (Launch.selectRoute w forced).2) (clearOk : Bool) :
    desiredRoute w forced clearOk file = (word (Launch.selectRoute w forced).1, file) := by
  have hpending : routeOf [.lit "--time-sync-pending"] = word .offline := by decide
  have hforce : routeOf [.lit "--force-offline"] = word .offline := by decide
  unfold desiredRoute routeAfterHold
  rw [hhold, Launch.selectRoute_eq, routeOf_observe, hpending, hforce]
  cases forced with
  | true => rfl
  | false =>
      cases Launch.networkIsOnline w.nmcli with
      | false =>
          cases w.setupActive with
          | true => rfl
          | false => rfl
      | true =>
          -- a hold needs a clock that is not synchronized, then as now
          cases ntpSynchronized w.timedatectl with
          | true => rfl
          | false =>
              cases w.clockPlausible with
              | true => rfl
              | false => rfl

/-- **Launcher and watcher agree** in a fixed environment: the route that the
watcher computes after the publish step is the published one, and the kiosk is
not restarted. -/
theorem watcher_keeps_published_route {w : Surroundings} {launchOk : Bool}
    {prior file : StateFile} (hlaunch : Launch.run w launchOk prior = some file) {forced : Bool}
    (hforced : forceOffline w.qemu = some forced) (mirrorOk clearOk : Bool) :
    ∃ (s : RuntimeState) (r : Route), RuntimeState.read file = .ok (some s) ∧
      s.activeRoute = r.name ∧ (cycle w forced mirrorOk clearOk file).wanted = word r ∧
      (cycle w forced mirrorOk clearOk file).active = some (word r) ∧
      (cycle w forced mirrorOk clearOk file).restarts = false := by
  obtain ⟨hdir, forced', hforced', hfile⟩ := Launch.run_eq_some hlaunch
  rw [forceOffline_agree hforced' hforced] at hfile
  let r := (Launch.selectRoute w forced).1
  have hvalid := Launch.isValid_published r (Launch.selectRoute w forced).2
  have hread : RuntimeState.read file =
      .ok (some (Launch.published r (Launch.selectRoute w forced).2)) := by
    rw [hfile]
    exact RuntimeState.read_document hvalid
  obtain ⟨progress, hmirror⟩ := mirror_of_read hdir hread mirrorOk
  have hhold : holdRead w (mirror w mirrorOk file) = (Launch.selectRoute w forced).2 :=
    holdRead_of_read hdir hmirror
  have hactive : readActiveRoute w (mirror w mirrorOk file) = some (word r) :=
    readActiveRoute_of_read hdir hmirror rfl
  have hcycle : cycle w forced mirrorOk clearOk file =
      ⟨word r, some (word r), mirror w mirrorOk file⟩ := by
    simp only [cycle, desiredRoute_of_selected hhold, hactive, r]
  rw [hcycle]
  exact ⟨_, r, hread, rfl, rfl, rfl, by simp [Cycle.restarts]⟩

/-- Full connectivity with a clock that cannot be right. -/
def heldSurroundings : Surroundings where
  qemu := ⟨none, none, none, none⟩
  runtimeDir := Sh.lit "/run/sushida-os"
  testMode := false
  nmcli := ⟨0, Sh.lit "connected:full\n"⟩
  setupActive := true
  timedatectl := ⟨0, Sh.lit "no\n"⟩
  clockPlausible := false
  graceSeconds := 20
  marker := true

/-- The offline page stays, although NetworkManager is online. -/
theorem watcher_keeps_hold :
    ∃ file : StateFile, Launch.run heldSurroundings true .unusable = some file ∧
      (cycle heldSurroundings false true true file).wanted = word .offline ∧
      (cycle heldSurroundings false true true file).restarts = false := by
  have hlaunch : Launch.run heldSurroundings true .unusable =
      some (.document (Launch.published .offline true).document) := rfl
  obtain ⟨s, r, -, -, -, -, hstay⟩ := watcher_keeps_published_route hlaunch
    (rfl : forceOffline heldSurroundings.qemu = some false) true true
  exact ⟨_, hlaunch, rfl, hstay⟩

end Watch

end SushidaOs
