import SushidaOs.Runtime.NetworkWatch

/-!
# SushidaOs.Runtime.Interleave

The launcher and the network watcher on one state file.

The file is replaced atomically and read atomically, but nothing keeps the two
processes apart between their accesses.  Two things can go wrong:

* the watcher reads the hold and the active route in two accesses, and a
  publish in between makes it compare the route of a state with a hold that it
  does not know of;
* the watcher's updates read the state and write it back, and a publish in
  between is overwritten.
-/

namespace SushidaOs

namespace Interleave

/-! ## one watcher cycle and one publish -/

/-- Where a cycle with force-offline off stands.  Each step is one access to
the state file, or none. -/
inductive Pc where
  | mirror
  | readHold
  | observe (held : Bool)
  | readActive (wanted : ShStr)
  /-- The comparison, with the file as it was when the active route was read. -/
  | compare (wanted : ShStr) (active : Option ShStr) (read : StateFile)
  | done (restarted : Bool) (read : StateFile)

/-- A step of the watcher. -/
def watchStep (w : Surroundings) (mirrorOk clearOk : Bool) : StateFile × Pc → StateFile × Pc
  | (file, .mirror) => (Watch.mirror w mirrorOk file, .readHold)
  | (file, .readHold) => (file, .observe (Watch.holdRead w file))
  | (file, .observe held) =>
      let (wanted, file') := Watch.routeAfterHold w clearOk held file
      (file', .readActive wanted)
  | (file, .readActive wanted) => (file, .compare wanted (Watch.readActiveRoute w file) file)
  | (file, .compare wanted active read) =>
      (file, .done (Watch.Cycle.restarts ⟨wanted, active, file⟩) read)
  | (file, .done restarted read) => (file, .done restarted read)

/-- Several steps of the watcher. -/
def watchSteps (w : Surroundings) (mirrorOk clearOk : Bool) : Nat → StateFile × Pc → StateFile × Pc
  | 0, s => s
  | n + 1, s => watchSteps w mirrorOk clearOk n (watchStep w mirrorOk clearOk s)

/-- The file after the launcher's publish step. -/
def publish (selected : Route × Bool) : StateFile :=
  .document (Launch.published selected.1 selected.2).document

/-- A cycle of five steps with a publish after `k` of them. -/
def cycleWithPublish (w : Surroundings) (mirrorOk clearOk : Bool) (prior : StateFile)
    (selected : Route × Bool) (k : Fin 6) : StateFile × Pc :=
  watchSteps w mirrorOk clearOk (5 - k.val)
    (publish selected, (watchSteps w mirrorOk clearOk k.val (prior, .mirror)).2)

/-- Without a publish the steps are those of `Watch.cycle`. -/
theorem watchSteps_cycle (w : Surroundings) (mirrorOk clearOk : Bool) (file : StateFile) :
    watchSteps w mirrorOk clearOk 5 (file, .mirror) =
      ((Watch.cycle w false mirrorOk clearOk file).file,
        .done (Watch.cycle w false mirrorOk clearOk file).restarts
          (Watch.cycle w false mirrorOk clearOk file).file) := rfl

/-- The kiosk was signalled although the state whose route was compared has a
hold. -/
def SignalsHeldState (s : StateFile × Pc) : Prop :=
  ∃ (read : StateFile) (state : RuntimeState), s.2 = .done true read ∧
    RuntimeState.read read = .ok (some state) ∧ state.timeSyncRequired = true

/-- The file has a hold. -/
def Held (file : StateFile) : Prop :=
  ∃ s : RuntimeState, RuntimeState.read file = .ok (some s) ∧ s.timeSyncRequired = true

/-- The route of an observation without a hold. -/
def observedRoute (w : Surroundings) : Route :=
  if Launch.networkIsOnline w.nmcli then .online
  else if w.setupActive then .setup
  else .offline

/-- The schedules and states in which the hold is overlooked: a hold is
published between the watcher's two reads, the state before had none, and the
observation is not for the offline route; or the route is read before the
publish, in a state that has a hold and another route than offline. -/
def HoldOverlooked (w : Surroundings) (prior : StateFile) (selected : Route × Bool) (k : Fin 6) :
    Prop :=
  ((k = 2 ∨ k = 3) ∧ selected.2 = true ∧ ¬ Held prior ∧ observedRoute w ≠ .offline) ∨
  ((k = 4 ∨ k = 5) ∧ ∃ s : RuntimeState, RuntimeState.read prior = .ok (some s) ∧
    s.timeSyncRequired = true ∧ s.activeRoute ≠ Route.offline.name)

section Hold

variable {w : Surroundings} (hdir : w.directoryAccepted = true)

include hdir

theorem holdRead_iff (file : StateFile) : Watch.holdRead w file = true ↔ Held file := by
  constructor
  · exact Watch.holdRead_eq_true hdir
  · rintro ⟨s, hread, hs⟩
    rw [Watch.holdRead_of_read hdir hread, hs]

theorem held_mirror (mirrorOk : Bool) (file : StateFile) :
    Held (Watch.mirror w mirrorOk file) ↔ Held file := by
  constructor
  · rintro ⟨s, hread, hs⟩
    obtain ⟨progress, hfile⟩ := Watch.read_of_mirror hdir hread
    exact ⟨_, hfile, hs⟩
  · rintro ⟨s, hread, hs⟩
    obtain ⟨progress, hfile⟩ := Watch.mirror_of_read hdir hread mirrorOk
    exact ⟨_, hfile, hs⟩

end Hold

/-- Without NTP the watcher keeps the hold it has read. -/
theorem routeAfterHold_eq {w : Surroundings} (hntp : ntpSynchronized w.timedatectl = false)
    (clearOk held : Bool) (file : StateFile) :
    Watch.routeAfterHold w clearOk held file =
      (Watch.word (if held then .offline else observedRoute w), file) := by
  have hpending : Watch.routeOf [.lit "--time-sync-pending"] = Watch.word .offline := by decide
  rw [Watch.routeAfterHold, hntp, hpending, Watch.routeOf_observe]
  cases held with
  | true => rfl
  | false => rfl

/-- The file when the hold is read. -/
def holdFile (w : Surroundings) (mirrorOk : Bool) (prior : StateFile) (selected : Route × Bool)
    (k : Fin 6) : StateFile :=
  if k = 0 then Watch.mirror w mirrorOk (publish selected)
  else if k = 1 then publish selected
  else Watch.mirror w mirrorOk prior

/-- The file when the active route is read. -/
def routeFile (w : Surroundings) (mirrorOk : Bool) (prior : StateFile) (selected : Route × Bool)
    (k : Fin 6) : StateFile :=
  if k = 0 then Watch.mirror w mirrorOk (publish selected)
  else if k ≤ 3 then publish selected
  else Watch.mirror w mirrorOk prior

/-- The end of the cycle in terms of the two reads. -/
theorem cycleWithPublish_eq {w : Surroundings} (hntp : ntpSynchronized w.timedatectl = false)
    (mirrorOk clearOk : Bool) (prior : StateFile) (selected : Route × Bool) (k : Fin 6) :
    (cycleWithPublish w mirrorOk clearOk prior selected k).2 =
      .done (Watch.Cycle.restarts ⟨Watch.word (if Watch.holdRead w
          (holdFile w mirrorOk prior selected k) then .offline else observedRoute w),
        Watch.readActiveRoute w (routeFile w mirrorOk prior selected k),
        routeFile w mirrorOk prior selected k⟩) (routeFile w mirrorOk prior selected k) := by
  have hobserve : ∀ (file : StateFile) (held : Bool),
      watchStep w mirrorOk clearOk (file, .observe held) =
        (file, .readActive (Watch.word (if held then .offline else observedRoute w))) := by
    intro file held
    rw [watchStep, routeAfterHold_eq hntp]
  -- the rest of the cycle from each point at which the file may be replaced
  have hactive : ∀ (file : StateFile) (wanted : ShStr),
      (watchSteps w mirrorOk clearOk 2 (file, .readActive wanted)).2 =
        .done (Watch.Cycle.restarts ⟨wanted, Watch.readActiveRoute w file, file⟩) file :=
    fun _ _ => rfl
  have hrest : ∀ (file : StateFile) (held : Bool),
      (watchSteps w mirrorOk clearOk 3 (file, .observe held)).2 =
        .done (Watch.Cycle.restarts ⟨Watch.word (if held then .offline else observedRoute w),
          Watch.readActiveRoute w file, file⟩) file := by
    intro file held
    rw [watchSteps, hobserve, hactive]
  match k with
  | 0 => exact hrest _ _
  | 1 => exact hrest _ _
  | 2 => exact hrest _ _
  | 3 =>
      have hpc : (watchSteps w mirrorOk clearOk 3 (prior, .mirror)).2 = .readActive (Watch.word
          (if Watch.holdRead w (Watch.mirror w mirrorOk prior) then .offline
            else observedRoute w)) := by
        simp only [watchSteps, watchStep, routeAfterHold_eq hntp]
      show (watchSteps w mirrorOk clearOk 2
        (publish selected, (watchSteps w mirrorOk clearOk 3 (prior, .mirror)).2)).2 = _
      rw [hpc]
      exact hactive _ _
  | 4 =>
      have hpc : (watchSteps w mirrorOk clearOk 4 (prior, .mirror)).2 = .compare (Watch.word
          (if Watch.holdRead w (Watch.mirror w mirrorOk prior) then .offline
            else observedRoute w)) (Watch.readActiveRoute w (Watch.mirror w mirrorOk prior))
          (Watch.mirror w mirrorOk prior) := by
        simp only [watchSteps, watchStep, routeAfterHold_eq hntp]
      show (watchSteps w mirrorOk clearOk 1
        (publish selected, (watchSteps w mirrorOk clearOk 4 (prior, .mirror)).2)).2 = _
      rw [hpc]
      rfl
  | 5 => exact hrest _ _

/-- The state in `routeRead` has a hold, and another route than the one that is
wanted after reading the hold in `holdRead`. -/
def Mismatch (w : Surroundings) (holdRead routeRead : StateFile) : Prop :=
  ∃ (s : RuntimeState) (r : Route), RuntimeState.read routeRead = .ok (some s) ∧
    s.timeSyncRequired = true ∧ s.activeRoute = r.name ∧
    r ≠ (if Watch.holdRead w holdRead then .offline else observedRoute w)

/-- A state that was read has the name of a route. -/
theorem route_of_read {file : StateFile} {s : RuntimeState}
    (h : RuntimeState.read file = .ok (some s)) : ∃ r : Route, s.activeRoute = r.name := by
  have hvalid := RuntimeState.isValid_of_read h
  rw [RuntimeState.isValid, Bool.and_eq_true] at hvalid
  exact Route.exists_name hvalid.1

section Violation

variable {w : Surroundings} (hdir : w.directoryAccepted = true)

include hdir

/-- The violation in terms of the two reads. -/
theorem signalsHeldState_iff (hntp : ntpSynchronized w.timedatectl = false)
    (mirrorOk clearOk : Bool) (prior : StateFile) (selected : Route × Bool) (k : Fin 6) :
    SignalsHeldState (cycleWithPublish w mirrorOk clearOk prior selected k) ↔
      Mismatch w (holdFile w mirrorOk prior selected k)
        (routeFile w mirrorOk prior selected k) := by
  have hrestart : ∀ (s : RuntimeState) (r : Route) (wanted : Route),
      RuntimeState.read (routeFile w mirrorOk prior selected k) = .ok (some s) →
      s.activeRoute = r.name →
      (Watch.Cycle.restarts ⟨Watch.word wanted,
        Watch.readActiveRoute w (routeFile w mirrorOk prior selected k),
        routeFile w mirrorOk prior selected k⟩ = true ↔ r ≠ wanted) := by
    intro s r wanted hread hr
    rw [Watch.readActiveRoute_of_read hdir hread hr]
    simp only [Watch.Cycle.restarts, bne_iff_ne, ne_eq]
    constructor
    · exact fun hne heq => hne (by rw [heq])
    · exact fun hne heq => hne (Watch.word_injective heq)
  unfold SignalsHeldState
  rw [cycleWithPublish_eq hntp]
  constructor
  · rintro ⟨read, s, hdone, hread, hs⟩
    injection hdone with hsignal hfile
    rw [← hfile] at hread
    obtain ⟨r, hr⟩ := route_of_read hread
    exact ⟨s, r, hread, hs, hr, (hrestart s r _ hread hr).mp hsignal⟩
  · rintro ⟨s, r, hread, hs, hr, hne⟩
    exact ⟨_, s, by rw [(hrestart s r _ hread hr).mpr hne], hread, hs⟩

/-- Both reads in the same state: the hold is known. -/
theorem mismatch_self_iff (file : StateFile) :
    Mismatch w file file ↔ ∃ s : RuntimeState, RuntimeState.read file = .ok (some s) ∧
      s.timeSyncRequired = true ∧ s.activeRoute ≠ Route.offline.name := by
  constructor
  · rintro ⟨s, r, hread, hs, hr, hne⟩
    rw [(holdRead_iff hdir file).mpr ⟨s, hread, hs⟩, if_pos rfl] at hne
    refine ⟨s, hread, hs, fun heq => hne (Route.name_injective ?_)⟩
    rw [← hr]
    exact heq
  · rintro ⟨s, hread, hs, hne⟩
    obtain ⟨r, hr⟩ := route_of_read hread
    refine ⟨s, r, hread, hs, hr, ?_⟩
    rw [(holdRead_iff hdir file).mpr ⟨s, hread, hs⟩, if_pos rfl]
    exact fun heq => hne (by rw [hr, heq])

/-- Mirroring the marker does not matter. -/
theorem mismatch_mirror_iff (mirrorOk : Bool) (file : StateFile) :
    Mismatch w (Watch.mirror w mirrorOk file) (Watch.mirror w mirrorOk file) ↔
      Mismatch w file file := by
  rw [mismatch_self_iff hdir, mismatch_self_iff hdir]
  constructor
  · rintro ⟨s, hread, hs, hne⟩
    obtain ⟨progress, hfile⟩ := Watch.read_of_mirror hdir hread
    exact ⟨_, hfile, hs, hne⟩
  · rintro ⟨s, hread, hs, hne⟩
    obtain ⟨progress, hmirror⟩ := Watch.mirror_of_read hdir hread mirrorOk
    exact ⟨_, hmirror, hs, hne⟩

end Violation

/-! ## what the launcher publishes -/

theorem read_publish (selected : Route × Bool) :
    RuntimeState.read (publish selected) =
      .ok (some (Launch.published selected.1 selected.2)) :=
  RuntimeState.read_document (Launch.isValid_published selected.1 selected.2)

section Published

variable {w : Surroundings} (hdir : w.directoryAccepted = true) (launcher : Surroundings)
  (forced : Bool)

include hdir

/-- The launcher holds on the offline route only. -/
theorem not_mismatch_publish :
    ¬ Mismatch w (publish (Launch.selectRoute launcher forced))
      (publish (Launch.selectRoute launcher forced)) := by
  rw [mismatch_self_iff hdir]
  rintro ⟨s, hread, hs, hne⟩
  rw [read_publish, Except.ok.injEq, Option.some.injEq] at hread
  rw [← hread] at hs hne
  exact hne (by rw [Launch.published, Launch.route_of_hold hs])

/-- A publish between the two reads. -/
theorem mismatch_gap_iff (mirrorOk : Bool) (prior : StateFile) :
    Mismatch w (Watch.mirror w mirrorOk prior) (publish (Launch.selectRoute launcher forced)) ↔
      (Launch.selectRoute launcher forced).2 = true ∧ ¬ Held prior ∧
        observedRoute w ≠ .offline := by
  rw [← held_mirror hdir mirrorOk prior, ← holdRead_iff hdir]
  constructor
  · rintro ⟨s, r, hread, hs, hr, hne⟩
    rw [read_publish, Except.ok.injEq, Option.some.injEq] at hread
    rw [← hread] at hs hr
    have hoffline : r = .offline := by
      rw [← Launch.route_of_hold hs]
      exact Route.name_injective hr.symm
    rw [hoffline] at hne
    cases hheld : Watch.holdRead w (Watch.mirror w mirrorOk prior) with
    | true => rw [hheld, if_pos rfl] at hne; exact absurd rfl hne
    | false =>
        rw [hheld] at hne
        exact ⟨hs, by simp, fun heq => hne heq.symm⟩
  · rintro ⟨hflag, hheld, hroute⟩
    refine ⟨_, .offline, read_publish _, hflag, ?_, ?_⟩
    · rw [Launch.published, Launch.route_of_hold hflag]
    · rw [if_neg hheld]
      exact hroute.symm

end Published

/-- **The hold is respected** in a cycle with one publish, exactly when the
publish does not fall into the gap between the watcher's reads as
`HoldOverlooked` says, and the state before is no hold on another route. -/
theorem hold_respected_iff {w : Surroundings} (hdir : w.directoryAccepted = true)
    (hntp : ntpSynchronized w.timedatectl = false) (mirrorOk clearOk : Bool) (prior : StateFile)
    (launcher : Surroundings) (forced : Bool) (k : Fin 6) :
    ¬ SignalsHeldState
        (cycleWithPublish w mirrorOk clearOk prior (Launch.selectRoute launcher forced) k) ↔
      ¬ HoldOverlooked w prior (Launch.selectRoute launcher forced) k := by
  have hnever := not_mismatch_publish hdir launcher forced
  have hgap := mismatch_gap_iff hdir launcher forced mirrorOk prior
  have hlate := (mismatch_mirror_iff hdir mirrorOk prior).trans (mismatch_self_iff hdir prior)
  rw [not_iff_not, signalsHeldState_iff hdir hntp]
  unfold HoldOverlooked
  match k with
  | 0 => exact iff_of_false (fun h => hnever ((mismatch_mirror_iff hdir mirrorOk _).mp h)) (by simp)
  | 1 => exact iff_of_false hnever (by simp)
  | 2 => exact hgap.trans (by simp)
  | 3 => exact hgap.trans (by simp)
  | 4 => exact hlate.trans (by simp)
  | 5 => exact hlate.trans (by simp)

/-- A publish of the hold that comes before the cycle's first read is
respected. -/
theorem hold_respected_after_publish :
    ¬ SignalsHeldState (cycleWithPublish Watch.heldSurroundings true true .unusable
      (Launch.selectRoute Watch.heldSurroundings false) 1) :=
  (hold_respected_iff rfl (by decide) true true .unusable Watch.heldSurroundings false 1).mpr
    (by simp [HoldOverlooked])

/-- The watcher has read that there is no hold, the launcher publishes one with
the offline page, and the watcher takes the page for a mismatch. -/
theorem hold_overlooked_in_gap :
    ntpSynchronized Watch.heldSurroundings.timedatectl = false ∧
    SignalsHeldState (cycleWithPublish Watch.heldSurroundings true true .unusable
      (Launch.selectRoute Watch.heldSurroundings false) 2) :=
  ⟨by decide, _, Launch.published .offline true, rfl, rfl, rfl⟩

/-! ## one update and one publish -/

/-- The updates of the watcher: `--set-connection-in-progress` and
`--clear-time-sync`. -/
inductive Update where
  | setProgress (v : Bool)
  | clearTimeSync
  deriving DecidableEq, Repr

/-- The request of an update. -/
def Update.request : Update → StateCli.Request
  | setProgress v => .setProgress v
  | clearTimeSync => .clearTimeSync

/-- Where an update stands: before `read_state`, before the rename (or the exit
without one), at its end with the exit status. -/
inductive UpdatePc where
  | read
  | write (plan : StateCli.Plan)
  | done (status : Nat)

/-- A step of the update. -/
def updateStep (u : Update) : StateFile × UpdatePc → StateFile × UpdatePc
  | (file, .read) => (file, .write (u.request.plan (RuntimeState.read file)))
  | (file, .write plan) =>
      let (result, file') := plan.run true file
      (file', .done result.status)
  | (file, .done status) => (file, .done status)

def updateSteps (u : Update) : Nat → StateFile × UpdatePc → StateFile × UpdatePc
  | 0, s => s
  | n + 1, s => updateSteps u n (updateStep u s)

/-- An update of two steps with the publish of `p` after `k` of them. -/
def updateWithPublish (u : Update) (prior : StateFile) (p : RuntimeState) (k : Fin 3) :
    StateFile × UpdatePc :=
  let (file, pc) := updateSteps u k.val (prior, .read)
  let (_, published) := ((StateCli.Request.write p).plan (RuntimeState.read file)).run true file
  updateSteps u (2 - k.val) (published, pc)

/-- The update has something to write. -/
def Update.writes (u : Update) (s : RuntimeState) : Prop :=
  match u with
  | setProgress v => s.connectionInProgress ≠ v
  | clearTimeSync => True

/-- The route and the reason of a state. -/
def SameRoute (s t : RuntimeState) : Prop :=
  s.activeRoute = t.activeRoute ∧ s.lastReason = t.lastReason

/-- What an update plans: to write the state back with its own field changed,
or nothing. -/
theorem Update.plan_cases (u : Update) (s : RuntimeState) :
    (u.writes s ∧ ∃ t : RuntimeState, u.request.plan (.ok (some s)) = .publish t ∧
      SameRoute t s) ∨
    (¬ u.writes s ∧ u.request.plan (.ok (some s)) = .exit ⟨0, []⟩) := by
  cases u with
  | clearTimeSync => exact .inl ⟨trivial, _, rfl, rfl, rfl⟩
  | setProgress v =>
      by_cases hv : s.connectionInProgress = v
      · right
        refine ⟨fun hwrites => hwrites hv, ?_⟩
        simp only [Update.request, StateCli.Request.plan, if_pos hv]
      · left
        refine ⟨hv, { s with connectionInProgress := v }, ?_, rfl, rfl⟩
        simp only [Update.request, StateCli.Request.plan, if_neg hv]

theorem SameRoute.isValid {s t : RuntimeState} (h : SameRoute s t) (ht : t.isValid = true) :
    s.isValid = true := by
  rw [RuntimeState.isValid, h.1, h.2]
  exact ht

/-- Writing a valid state. -/
theorem run_publish {s : RuntimeState} (hs : s.isValid = true) (file : StateFile) :
    (StateCli.Plan.publish s).run true file = (⟨0, []⟩, .document s.document) := by
  rw [StateCli.Plan.run, hs]
  rfl

/-- The rest of an update that has read the state `s`, on any file: the exit
status, and the state that the file then has. -/
theorem updateStep_write (u : Update) {s t : RuntimeState} {file : StateFile}
    (hs : s.isValid = true) (hfile : RuntimeState.read file = .ok (some t)) :
    (updateStep u (file, .write (u.request.plan (.ok (some s))))).2 = .done 0 ∧
    ∃ t' : RuntimeState, RuntimeState.read
        (updateStep u (file, .write (u.request.plan (.ok (some s))))).1 = .ok (some t') ∧
      ((u.writes s ∧ SameRoute t' s) ∨ (¬ u.writes s ∧ t' = t)) := by
  rcases u.plan_cases s with ⟨hwrites, t', hplan, hsame⟩ | ⟨hidle, hplan⟩
  · have ht' := hsame.isValid hs
    simp only [updateStep, hplan, run_publish ht']
    exact ⟨trivial, t', RuntimeState.read_document ht', .inl ⟨hwrites, hsame⟩⟩
  · simp only [updateStep, hplan, StateCli.Plan.run]
    exact ⟨trivial, t, hfile, .inr ⟨hidle, rfl⟩⟩

/-- **No published route is lost**, exactly when the publish does not fall
between the read and the rename of an update that has something to write back,
or the state that is written back has the published route and reason. -/
theorem published_route_kept_iff (u : Update) {prior : StateFile} {s p : RuntimeState}
    (hs : RuntimeState.read prior = .ok (some s)) (hp : p.isValid = true) (k : Fin 3) :
    (updateWithPublish u prior p k).2 = .done 0 ∧
    ((∃ t : RuntimeState, RuntimeState.read (updateWithPublish u prior p k).1 = .ok (some t) ∧
      SameRoute t p) ↔ ¬ (k = 1 ∧ u.writes s ∧ ¬ SameRoute s p)) := by
  have hvalid := RuntimeState.isValid_of_read hs
  have hread := RuntimeState.read_document hp
  have hpublish : ∀ file : StateFile,
      ((StateCli.Request.write p).plan (RuntimeState.read file)).run true file =
        (⟨0, []⟩, .document p.document) := fun file => run_publish hp file
  match k with
  | 0 =>
      have hrun : updateWithPublish u prior p 0 =
          updateStep u (.document p.document, .write (u.request.plan (.ok (some p)))) := by
        simp only [updateWithPublish, hpublish]
        show updateStep u (updateStep u (.document p.document, .read)) = _
        rw [updateStep, hread]
      obtain ⟨hdone, t', ht', hcases⟩ := updateStep_write u hp hread
      rw [hrun]
      refine ⟨hdone, iff_of_true ⟨t', ht', ?_⟩ (by simp)⟩
      cases hcases with
      | inl hwrote => exact hwrote.2
      | inr hidle => rw [hidle.2]; exact ⟨rfl, rfl⟩
  | 1 =>
      have hrun : updateWithPublish u prior p 1 =
          updateStep u (.document p.document, .write (u.request.plan (.ok (some s)))) := by
        simp only [updateWithPublish, hpublish]
        show updateStep u (.document p.document, (updateStep u (prior, .read)).2) = _
        rw [updateStep, hs]
      obtain ⟨hdone, t', ht', hcases⟩ := updateStep_write u hvalid hread
      rw [hrun]
      refine ⟨hdone, ?_⟩
      rw [ht']
      constructor
      · rintro ⟨t, ht, hsame⟩ ⟨_, hwrites, hlost⟩
        rw [Except.ok.injEq, Option.some.injEq] at ht
        cases hcases with
        | inl hwrote =>
            rw [← ht] at hsame
            exact hlost ⟨hwrote.2.1.symm.trans hsame.1, hwrote.2.2.symm.trans hsame.2⟩
        | inr hidle => exact hidle.1 hwrites
      · intro hkept
        refine ⟨t', rfl, ?_⟩
        cases hcases with
        | inl hwrote =>
            have hsame : SameRoute s p := by
              by_contra hlost
              exact hkept ⟨rfl, hwrote.1, hlost⟩
            exact ⟨hwrote.2.1.trans hsame.1, hwrote.2.2.trans hsame.2⟩
        | inr hidle => rw [hidle.2]; exact ⟨rfl, rfl⟩
  | 2 =>
      have hfirst : updateSteps u 2 (prior, .read) =
          updateStep u (prior, .write (u.request.plan (.ok (some s)))) := by
        show updateStep u (updateStep u (prior, .read)) = _
        rw [updateStep, hs]
      obtain ⟨hdone, -⟩ := updateStep_write u hvalid hs
      rw [← hfirst] at hdone
      have hrun : updateWithPublish u prior p 2 = (.document p.document, .done 0) := by
        simp only [updateWithPublish, hpublish]
        show (StateFile.document p.document, (updateSteps u 2 (prior, .read)).2) = _
        rw [hdone]
      rw [hrun]
      exact ⟨rfl, iff_of_true ⟨p, hread, rfl, rfl⟩ (by simp)⟩

/-- A state with the offline route, as an earlier boot has left it. -/
def offlineState : RuntimeState := ⟨.lit "offline", false, false, .lit "boot-route-selected"⟩

/-- The mirror of the marker before the publish: the route stays. -/
theorem published_route_kept_after_update :
    ∃ t : RuntimeState, RuntimeState.read (updateWithPublish (.setProgress true)
        (.document offlineState.document) (Launch.published .online false) 2).1 = .ok (some t) ∧
      SameRoute t (Launch.published .online false) :=
  (published_route_kept_iff (.setProgress true) (s := offlineState) (RuntimeState.read_document rfl)
    (Launch.isValid_published .online false) 2).2.mpr (by simp)

/-- The mirror of the marker writes the old route back over a fresh publish. -/
theorem published_route_lost :
    (updateWithPublish (.setProgress true) (.document offlineState.document)
      (Launch.published .online false) 1).2 = .done 0 ∧
    RuntimeState.read (updateWithPublish (.setProgress true) (.document offlineState.document)
      (Launch.published .online false) 1).1 =
        .ok (some { offlineState with connectionInProgress := true }) ∧
    ¬ SameRoute { offlineState with connectionInProgress := true }
      (Launch.published .online false) := by
  refine ⟨rfl, rfl, ?_⟩
  intro h
  exact absurd h.1 (by decide)

end Interleave

end SushidaOs
