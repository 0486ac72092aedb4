import SushidaOs.Wifi.Core
import SushidaOs.Wifi.Restore

/-!
# SushidaOs.Wifi.Service

The three threads of the Wi-Fi setup service (`sushida-wifi-setup`): the
single-threaded HTTP server, the restore supervisor and the worker.

The HTTP thread runs `do_GET` and `do_POST` (`sushida_os/wifi/web.py`) one
request after another.  Requests arrive in any order; a request that never
reaches the coordinator (a redirect, a rejected POST) is `other`.  Writing
and flushing the response of a POST is one atom, which may raise because the
client went away; the exception leaves `do_POST` before
`start_queued_connection` and the server goes on with the next request.

`_mirror_progress` reads the state under the lock and writes the marker file
after releasing it, so it is two atoms.  The marker file is the field
`marker`; it is assumed that it can always be created and removed.
-/

namespace SushidaOs

/-- A request as far as the coordinator is concerned. -/
inductive HttpRequest where
  /-- `GET /status.json`. -/
  | statusJson
  /-- `GET /` or `GET /rescan`. -/
  | page
  /-- A POST that passed every check of `do_POST`. -/
  | connect (c : Credential)
  /-- Everything else. -/
  | other
  deriving DecidableEq, Repr

/-- The position of the HTTP thread, before its next atom.  `tag` is the
number of the submission a `do_POST` has made. -/
inductive HttpPc where
  /-- `serve_forever`, between requests. -/
  | serving
  /-- `_reply_status`, before `connect_status`. -/
  | status
  /-- `do_GET`, before `connect_status`. -/
  | page
  /-- Before the locked part of `consume_failure`. -/
  | consume
  /-- In `network_connected()`. -/
  | probe
  /-- Before the locked part of `reset_succeeded`. -/
  | reset
  /-- The two halves of `_mirror_progress` at the end of `consume_failure`
  and of `reset_succeeded`. -/
  | pageMirrorRead
  | pageMirrorWrite (active : Bool)
  /-- `enqueue_interactive`, before `self._restore_cancelled.set()`. -/
  | cancel (c : Credential)
  /-- `enqueue_interactive`, before its locked part. -/
  | enqueue (c : Credential)
  /-- The two halves of `_mirror_progress` in `enqueue_interactive`. -/
  | enqueueMirrorRead (tag : Nat)
  | enqueueMirrorWrite (tag : Nat) (active : Bool)
  /-- `_reply_connecting`. -/
  | reply (tag : Nat)
  /-- Before `start_queued_connection`. -/
  | start (tag : Nat)
  deriving DecidableEq, Repr

/-- What the HTTP thread does not decide itself. -/
inductive HttpInput where
  | request (q : HttpRequest)
  /-- The next atom. -/
  | go
  /-- The answer of `network_connected()`. -/
  | connected (b : Bool)
  /-- Writing or flushing the response raises. -/
  | raises
  deriving DecidableEq, Repr

/-- What the restore thread does not decide itself. -/
inductive RestoreInput where
  | go
  /-- A clock test or an `nmcli` query. -/
  | bool (b : Bool)
  /-- `storage.load_credentials()`. -/
  | saved (c : Option Credential)
  deriving DecidableEq, Repr

/-- Which thread moves. -/
inductive Label where
  | http (i : HttpInput)
  | restore (i : RestoreInput)
  | worker
  /-- `self._connect` ends. -/
  | connect (a : ConnectAnswer)
  deriving DecidableEq, Repr

/-- The state of the service. -/
structure Service where
  core : Core
  /-- The connection-in-progress marker exists. -/
  marker : Bool
  http : HttpPc
  restore : RestoreThread

namespace Service

/-- The service after `main` has started its threads. -/
def fresh : Service where
  core := .fresh
  marker := false
  http := .serving
  restore := .start

/-- The fields of the coordinator. -/
abbrev coord (s : Service) : Coordinator Submission := s.core.coord

/-- Execute an atom of the coordinator, then continue. -/
def atom (s : Service) (a : Action) (k : Service → Service) : Option (Service × List Event) :=
  match s.core.step a with
  | some (core, evs) => some (k { s with core := core }, evs)
  | none => none

/-! ## the HTTP thread -/

/-- Where `do_GET` goes after its `connect_status`. -/
def pageNext : ConnectState → HttpPc
  | .connecting => .serving
  | .failed => .consume
  | .succeeded => .probe
  | .idle => .serving

/-- One atom of the HTTP thread. -/
def stepHttp (s : Service) (i : HttpInput) : Option (Service × List Event) :=
  match s.http, i with
  | .serving, .request .statusJson => some ({ s with http := .status }, [])
  | .serving, .request .page => some ({ s with http := .page }, [])
  | .serving, .request (.connect c) => some ({ s with http := .cancel c }, [])
  | .serving, .request .other => some ({ s with http := .serving }, [])
  | .status, .go => s.atom .connectStatus fun s => { s with http := .serving }
  | .page, .go => s.atom .connectStatus fun s => { s with http := pageNext s.coord.connectState }
  | .consume, .go =>
      let found := s.coord.connectState = .failed
      s.atom .consumeFailure fun s =>
        { s with http := if found then .pageMirrorRead else .serving }
  | .probe, .connected b => some ({ s with http := if b then .serving else .reset }, [])
  | .reset, .go => s.atom .resetSucceeded fun s => { s with http := .pageMirrorRead }
  | .pageMirrorRead, .go => some ({ s with http := .pageMirrorWrite s.coord.active }, [])
  | .pageMirrorWrite active, .go => some ({ s with marker := active, http := .serving }, [])
  | .cancel c, .go => s.atom .cancelRestore fun s => { s with http := .enqueue c }
  | .enqueue c, .go =>
      let tag := s.core.count
      let started := s.coord.connectState = .idle
      s.atom (.enqueueInteractive c) fun s =>
        { s with http := if started then .enqueueMirrorRead tag else .reply tag }
  | .enqueueMirrorRead tag, .go =>
      some ({ s with http := .enqueueMirrorWrite tag s.coord.active }, [])
  | .enqueueMirrorWrite tag active, .go =>
      some ({ s with marker := active, http := .reply tag }, [])
  | .reply tag, .go => some ({ s with http := .start tag }, [.responded tag])
  | .reply _, .raises => some ({ s with http := .serving }, [])
  | .start tag, .go =>
      some ({ s with core := { s.core with coord := s.coord.startAfterResponse },
                     http := .serving }, [.started tag])
  | _, _ => none

/-! ## the restore thread -/

/-- Give the restore thread its answer. -/
def resume (s : Service) (a : RestoreAnswer) (evs : List Event) :
    Option (Service × List Event) :=
  match s.restore.next a with
  | some t => some ({ s with restore := t }, evs)
  | none => none

/-- Execute an atom of the coordinator for the restore thread. -/
def restoreAtom (s : Service) (act : Action) (a : RestoreAnswer) :
    Option (Service × List Event) :=
  match s.core.step act with
  | some (core, evs) => { s with core := core }.resume a evs
  | none => none

/-- One atom of the restore thread. -/
def stepRestore (s : Service) (i : RestoreInput) : Option (Service × List Event) :=
  match s.restore.pc, i with
  | .loopTest, .bool b => s.resume (.bool b) []
  | .loopCancelled, .go => s.resume (.bool s.coord.restoreCancelled) []
  | .loopActive, .bool b => s.resume (.bool b) []
  | .loopInteractive, .go => s.resume (.bool s.coord.interactivePending) []
  | .deviceWaiting, .bool b => s.resume (.bool b) []
  | .deviceSleep, .go => s.resume .done []
  | .load, .saved c => s.resume (.saved c) []
  | .resetFailure _, .go => s.restoreAtom .resetFailure .done
  | .queue c, .go =>
      s.restoreAtom (.queueConnection c) (.bool (s.coord.connectState = .idle))
  | .queueMirrorRead, .go => s.resume (.bool s.coord.active) []
  | .queueMirrorWrite active, .go => { s with marker := active }.resume .done []
  | .refusedStatus, .go => s.restoreAtom .connectStatus (.state s.coord.connectState)
  | .refusedSleep, .go => s.resume .done []
  | .start, .go => s.restoreAtom .startAfterResponse .done
  | .attemptTest, .bool b => s.resume (.bool b) []
  | .attemptSleep, .go => s.resume .done []
  | .attemptCancelled, .go => s.resume (.bool s.coord.restoreCancelled) []
  | .attemptActive, .bool b => s.resume (.bool b) []
  | .attemptInteractive, .go => s.resume (.bool s.coord.interactivePending) []
  | .attemptStatus, .go => s.restoreAtom .connectStatus (.state s.coord.connectState)
  | .backoffSleep, .go => s.resume .done []
  | _, _ => none

/-! ## the service -/

/-- The marker after the worker's next atom. -/
def workerMarker (s : Service) : Bool :=
  match s.core.worker with
  | .mirrorWrite active => active
  | _ => s.marker

/-- One atom of the service. -/
def step (s : Service) : Label → Option (Service × List Event)
  | .http i => s.stepHttp i
  | .restore i => s.stepRestore i
  | .worker => s.atom .work fun s' => { s' with marker := s.workerMarker }
  | .connect a => s.atom (.answer a) id

end Service

/-- The Wi-Fi setup service under every schedule and every environment. -/
def serviceMachine : Machine Service Label Event where
  init := .fresh
  step := Service.step

/-! ## positions that matter -/

namespace HttpPc

/-- The submission of a `do_POST` between its `enqueue_interactive` and its
`start_queued_connection`. -/
def answering : HttpPc → Option Nat
  | enqueueMirrorRead tag | enqueueMirrorWrite tag _ | reply tag | start tag => some tag
  | _ => none

/-- Inside `_mirror_progress`. -/
def mirroring : HttpPc → Bool
  | pageMirrorRead | pageMirrorWrite _ | enqueueMirrorRead _ | enqueueMirrorWrite _ _ => true
  | _ => false

/-- Inside a method of the coordinator. -/
def inside : HttpPc → Bool
  | enqueue _ => true
  | pc => pc.mirroring

end HttpPc

namespace RestorePc

/-- Past the cancellation check at the top of an iteration and not past its
`queue_connection`. -/
def committed : RestorePc → Bool
  | loopActive | loopInteractive | deviceWaiting | load | resetFailure _ | queue _ => true
  | _ => false

/-- Between an accepted `queue_connection` and `start_queued_connection`. -/
def owesStart : RestorePc → Bool
  | queueMirrorRead | queueMirrorWrite _ | start => true
  | _ => false

end RestorePc

/-- The worker is blocked in `_request_event.wait()` with the event clear. -/
def Blocked (s : Service) : Prop := s.core.worker = .wait ∧ s.coord.requestEvent = false

instance (s : Service) : Decidable (Blocked s) := inferInstanceAs (Decidable (_ ∧ _))

namespace Service

/-! ## what a step can do -/

/-- The atoms of the service by their effect.  Moves that touch neither the
coordinator nor the marker are kept together. -/
inductive Effect (s : Service) : Label → Service → List Event → Prop
  /-- The HTTP thread takes a request, or ends one, outside the coordinator. -/
  | httpMove (i : HttpInput) (pc : HttpPc) (ha : s.http.answering = none)
      (hm : s.http.mirroring = false) (ha' : pc.answering = none) (hm' : pc.inside = false) :
      Effect s (.http i) { s with http := pc } []
  | httpReport (i : HttpInput) (pc : HttpPc) (ha : s.http.answering = none)
      (hm : s.http.mirroring = false) (ha' : pc.answering = none) (hm' : pc.inside = false) :
      Effect s (.http i) { s with http := pc }
        [.reported s.coord.connectState s.coord.stateMessage]
  | consume (hpc : s.http = .consume) (hs : s.coord.connectState = .failed) :
      Effect s (.http .go)
        { s with
          core := { s.core with
            coord := { s.coord with connectState := .idle, stateMessage := "" } }
          http := .pageMirrorRead }
        [.consumed s.coord.stateMessage]
  | resetSucceeded (hpc : s.http = .reset) :
      Effect s (.http .go)
        { s with
          core := { s.core with coord := s.coord.resetSucceeded }
          http := .pageMirrorRead }
        []
  | pageMirrorRead (hpc : s.http = .pageMirrorRead) :
      Effect s (.http .go) { s with http := .pageMirrorWrite s.coord.active } []
  | pageMirrorWrite (active : Bool) (hpc : s.http = .pageMirrorWrite active) :
      Effect s (.http .go) { s with marker := active, http := .serving } []
  | cancel (c : Credential) (hpc : s.http = .cancel c) :
      Effect s (.http .go)
        { s with
          core := { s.core with coord := s.coord.cancelRestore }
          http := .enqueue c }
        [.cancelled]
  | enqueueStart (c : Credential) (hpc : s.http = .enqueue c)
      (hs : s.coord.connectState = .idle) :
      Effect s (.http .go)
        { s with
          core := { s.core with
            coord := { s.coord with
              connectState := .connecting, stateMessage := "",
              pendingRequest := some (s.core.stamp .interactive c), pendingInteractive := none }
            count := s.core.count + 1 }
          http := .enqueueMirrorRead s.core.count }
        [.accepted (s.core.stamp .interactive c)]
  | enqueueDefer (c : Credential) (hpc : s.http = .enqueue c)
      (hs : s.coord.connectState ≠ .idle) :
      Effect s (.http .go)
        { s with
          core := { s.core with
            coord := { s.coord with pendingInteractive := some (s.core.stamp .interactive c) }
            count := s.core.count + 1 }
          http := .reply s.core.count }
        [.accepted (s.core.stamp .interactive c)]
  | enqueueMirrorRead (tag : Nat) (hpc : s.http = .enqueueMirrorRead tag) :
      Effect s (.http .go) { s with http := .enqueueMirrorWrite tag s.coord.active } []
  | enqueueMirrorWrite (tag : Nat) (active : Bool)
      (hpc : s.http = .enqueueMirrorWrite tag active) :
      Effect s (.http .go) { s with marker := active, http := .reply tag } []
  | respond (tag : Nat) (hpc : s.http = .reply tag) :
      Effect s (.http .go) { s with http := .start tag } [.responded tag]
  | raise (tag : Nat) (hpc : s.http = .reply tag) :
      Effect s (.http .raises) { s with http := .serving } []
  | httpStart (tag : Nat) (hpc : s.http = .start tag) :
      Effect s (.http .go)
        { s with
          core := { s.core with coord := s.coord.startAfterResponse }
          http := .serving }
        [.started tag]
  /-- The restore thread moves on outside the coordinator. -/
  | restoreMove (i : RestoreInput) (t : RestoreThread)
      (hc : t.pc.committed = true → s.restore.pc.committed = true)
      (ho : s.restore.pc.owesStart = false) (ho' : t.pc.owesStart = false) :
      Effect s (.restore i) { s with restore := t } []
  /-- It passes the cancellation check at the top of an iteration. -/
  | restoreChecked (t : RestoreThread) (hpc : s.restore.pc = .loopCancelled)
      (hflag : s.coord.restoreCancelled = false) (hpc' : t.pc = .loopActive) :
      Effect s (.restore .go) { s with restore := t } []
  | restoreReport (t : RestoreThread) (hc : t.pc.committed = false)
      (ho : s.restore.pc.owesStart = false) (ho' : t.pc.owesStart = false) :
      Effect s (.restore .go) { s with restore := t }
        [.reported s.coord.connectState s.coord.stateMessage]
  | restoreReset (c : Credential) (t : RestoreThread) (hpc : s.restore.pc = .resetFailure c)
      (hpc' : t.pc = .queue c) :
      Effect s (.restore .go)
        { s with
          core := { s.core with coord := s.coord.resetFailure }
          restore := t }
        (if s.coord.connectState = .failed then [.failureReset] else [])
  | restoreQueue (c : Credential) (t : RestoreThread) (hpc : s.restore.pc = .queue c)
      (hs : s.coord.connectState = .idle) (hpc' : t.pc = .queueMirrorRead) :
      Effect s (.restore .go)
        { s with
          core := { s.core with
            coord := { s.coord with
              connectState := .connecting, stateMessage := "",
              pendingRequest := some (s.core.stamp .restore c) }
            count := s.core.count + 1 }
          restore := t }
        [.accepted (s.core.stamp .restore c)]
  | restoreMirrorRead (t : RestoreThread) (hpc : s.restore.pc = .queueMirrorRead)
      (hpc' : t.pc = .queueMirrorWrite s.coord.active) :
      Effect s (.restore .go) { s with restore := t } []
  | restoreMirrorWrite (active : Bool) (t : RestoreThread)
      (hpc : s.restore.pc = .queueMirrorWrite active) (hpc' : t.pc = .start) :
      Effect s (.restore .go) { s with marker := active, restore := t } []
  | restoreStart (t : RestoreThread) (hpc : s.restore.pc = .start)
      (hpc' : t.pc = .attemptTest) :
      Effect s (.restore .go)
        { s with
          core := { s.core with coord := s.coord.startAfterResponse }
          restore := t }
        []
  | worker (core' : Core) (evs : List Event) (h : s.core.step .work = some (core', evs)) :
      Effect s .worker { s with core := core', marker := s.workerMarker } evs
  | connect (a : ConnectAnswer) (core' : Core) (evs : List Event)
      (h : s.core.step (.answer a) = some (core', evs)) :
      Effect s (.connect a) { s with core := core' } evs

theorem atom_some {s s' : Service} {a : Action} {k : Service → Service} {evs : List Event}
    (h : s.atom a k = some (s', evs)) :
    ∃ core', s.core.step a = some (core', evs) ∧ s' = k { s with core := core' } := by
  unfold atom at h
  cases hstep : s.core.step a with
  | none => simp only [hstep] at h; contradiction
  | some p =>
      obtain ⟨core', evs'⟩ := p
      simp only [hstep, Option.some.injEq, Prod.mk.injEq] at h
      obtain ⟨rfl, rfl⟩ := h
      exact ⟨core', rfl, rfl⟩

theorem resume_some {s s' : Service} {a : RestoreAnswer} {evs evs' : List Event}
    (h : s.resume a evs = some (s', evs')) :
    ∃ t, s.restore.next a = some t ∧ s' = { s with restore := t } ∧ evs' = evs := by
  unfold resume at h
  cases hnext : s.restore.next a with
  | none => simp only [hnext] at h; contradiction
  | some t =>
      simp only [hnext, Option.some.injEq, Prod.mk.injEq] at h
      obtain ⟨rfl, rfl⟩ := h
      exact ⟨t, rfl, rfl, rfl⟩

theorem restoreAtom_some {s s' : Service} {act : Action} {a : RestoreAnswer}
    {evs : List Event} (h : s.restoreAtom act a = some (s', evs)) :
    ∃ core' t, s.core.step act = some (core', evs) ∧ s.restore.next a = some t ∧
      s' = { s with core := core', restore := t } := by
  unfold restoreAtom at h
  cases hstep : s.core.step act with
  | none => simp only [hstep] at h; contradiction
  | some p =>
      obtain ⟨core', evs'⟩ := p
      simp only [hstep] at h
      obtain ⟨t, ht, rfl, rfl⟩ := resume_some h
      exact ⟨core', t, rfl, ht, rfl⟩

/-- The HTTP thread's atoms by their effect. -/
theorem effect_of_stepHttp {s s' : Service} {i : HttpInput} {evs : List Event}
    (h : s.stepHttp i = some (s', evs)) : Effect s (.http i) s' evs := by
  unfold stepHttp at h
  cases hpc : s.http with
  | serving =>
      cases i with
      | request q =>
          cases q with
          | statusJson | page | connect | other =>
              simp only [hpc, Option.some.injEq, Prod.mk.injEq] at h
              obtain ⟨rfl, rfl⟩ := h
              exact .httpMove _ _ (by rw [hpc]; rfl) (by rw [hpc]; rfl) rfl rfl
      | go | connected | raises => simp only [hpc] at h; contradiction
  | status =>
      cases i with
      | go =>
          simp only [hpc] at h
          obtain ⟨core', hstep, rfl⟩ := atom_some h
          simp only [Core.step, Option.some.injEq, Prod.mk.injEq] at hstep
          obtain ⟨rfl, rfl⟩ := hstep
          exact .httpReport _ _ (by rw [hpc]; rfl) (by rw [hpc]; rfl) rfl rfl
      | request | connected | raises => simp only [hpc] at h; contradiction
  | page =>
      cases i with
      | go =>
          simp only [hpc] at h
          obtain ⟨core', hstep, rfl⟩ := atom_some h
          simp only [Core.step, Option.some.injEq, Prod.mk.injEq] at hstep
          obtain ⟨rfl, rfl⟩ := hstep
          have hnext : (pageNext s.coord.connectState).answering = none ∧
              (pageNext s.coord.connectState).inside = false := by
            cases s.coord.connectState <;> exact ⟨rfl, rfl⟩
          exact .httpReport _ _ (by rw [hpc]; rfl) (by rw [hpc]; rfl) hnext.1 hnext.2
      | request | connected | raises => simp only [hpc] at h; contradiction
  | consume =>
      cases i with
      | go =>
          simp only [hpc] at h
          obtain ⟨core', hstep, rfl⟩ := atom_some h
          simp only [Core.step, Core.consumeFailure, Option.some.injEq] at hstep
          by_cases hs : s.coord.connectState = .failed
          · simp only [Coordinator.consumeFailure_failed hs, Prod.mk.injEq] at hstep
            obtain ⟨rfl, rfl⟩ := hstep
            simp only [hs, if_true]
            exact .consume hpc hs
          · simp only [Coordinator.consumeFailure_other hs, Prod.mk.injEq] at hstep
            obtain ⟨rfl, rfl⟩ := hstep
            simp only [hs, if_false]
            exact .httpMove _ _ (by rw [hpc]; rfl) (by rw [hpc]; rfl) rfl rfl
      | request | connected | raises => simp only [hpc] at h; contradiction
  | probe =>
      cases i with
      | connected b =>
          simp only [hpc, Option.some.injEq, Prod.mk.injEq] at h
          obtain ⟨rfl, rfl⟩ := h
          exact .httpMove _ _ (by rw [hpc]; rfl) (by rw [hpc]; rfl) (by cases b <;> rfl)
            (by cases b <;> rfl)
      | request | go | raises => simp only [hpc] at h; contradiction
  | reset =>
      cases i with
      | go =>
          simp only [hpc] at h
          obtain ⟨core', hstep, rfl⟩ := atom_some h
          simp only [Core.step, Option.some.injEq, Prod.mk.injEq] at hstep
          obtain ⟨rfl, rfl⟩ := hstep
          exact .resetSucceeded hpc
      | request | connected | raises => simp only [hpc] at h; contradiction
  | pageMirrorRead =>
      cases i with
      | go =>
          simp only [hpc, Option.some.injEq, Prod.mk.injEq] at h
          obtain ⟨rfl, rfl⟩ := h
          exact .pageMirrorRead hpc
      | request | connected | raises => simp only [hpc] at h; contradiction
  | pageMirrorWrite active =>
      cases i with
      | go =>
          simp only [hpc, Option.some.injEq, Prod.mk.injEq] at h
          obtain ⟨rfl, rfl⟩ := h
          exact .pageMirrorWrite active hpc
      | request | connected | raises => simp only [hpc] at h; contradiction
  | cancel c =>
      cases i with
      | go =>
          simp only [hpc] at h
          obtain ⟨core', hstep, rfl⟩ := atom_some h
          simp only [Core.step, Option.some.injEq, Prod.mk.injEq] at hstep
          obtain ⟨rfl, rfl⟩ := hstep
          exact .cancel c hpc
      | request | connected | raises => simp only [hpc] at h; contradiction
  | enqueue c =>
      cases i with
      | go =>
          simp only [hpc] at h
          obtain ⟨core', hstep, rfl⟩ := atom_some h
          simp only [Core.step, Core.enqueueInteractive, Option.some.injEq,
            Prod.mk.injEq] at hstep
          obtain ⟨rfl, rfl⟩ := hstep
          by_cases hs : s.coord.connectState = .idle
          · simp only [Coordinator.enqueueInteractive_idle hs, hs, if_true]
            exact .enqueueStart c hpc hs
          · simp only [Coordinator.enqueueInteractive_busy hs, hs, if_false]
            exact .enqueueDefer c hpc hs
      | request | connected | raises => simp only [hpc] at h; contradiction
  | enqueueMirrorRead tag =>
      cases i with
      | go =>
          simp only [hpc, Option.some.injEq, Prod.mk.injEq] at h
          obtain ⟨rfl, rfl⟩ := h
          exact .enqueueMirrorRead tag hpc
      | request | connected | raises => simp only [hpc] at h; contradiction
  | enqueueMirrorWrite tag active =>
      cases i with
      | go =>
          simp only [hpc, Option.some.injEq, Prod.mk.injEq] at h
          obtain ⟨rfl, rfl⟩ := h
          exact .enqueueMirrorWrite tag active hpc
      | request | connected | raises => simp only [hpc] at h; contradiction
  | reply tag =>
      cases i with
      | go =>
          simp only [hpc, Option.some.injEq, Prod.mk.injEq] at h
          obtain ⟨rfl, rfl⟩ := h
          exact .respond tag hpc
      | raises =>
          simp only [hpc, Option.some.injEq, Prod.mk.injEq] at h
          obtain ⟨rfl, rfl⟩ := h
          exact .raise tag hpc
      | request | connected => simp only [hpc] at h; contradiction
  | start tag =>
      cases i with
      | go =>
          simp only [hpc, Option.some.injEq, Prod.mk.injEq] at h
          obtain ⟨rfl, rfl⟩ := h
          exact .httpStart tag hpc
      | request | connected | raises => simp only [hpc] at h; contradiction

/-- Outside the coordinator calls the thread neither enters the committed
stretch of an iteration nor comes to owe a wake-up. -/
theorem next_moves {t t' : RestoreThread} {a : RestoreAnswer} (h : t.next a = some t')
    (hcheck : t.pc ≠ .loopCancelled) (hqueue : ∀ c, t.pc ≠ .queue c)
    (howes : t.pc.owesStart = false) :
    (t'.pc.committed = true → t.pc.committed = true) ∧ t'.pc.owesStart = false := by
  unfold RestoreThread.next at h
  cases hpc : t.pc with
  | loopCancelled => exact absurd hpc hcheck
  | queue c => exact absurd hpc (hqueue c)
  | queueMirrorRead | queueMirrorWrite | start => simp [hpc, RestorePc.owesStart] at howes
  | returned => simp only [hpc] at h; contradiction
  | loopTest | loopActive | loopInteractive | deviceWaiting | attemptTest | attemptCancelled
  | attemptActive | attemptInteractive =>
      cases a with
      | bool b =>
          simp only [hpc, Option.some.injEq] at h
          subst h
          simp only [RestoreThread.exitIf]
          split <;> simp [RestorePc.committed, RestorePc.owesStart]
      | done | saved | state => simp only [hpc] at h; contradiction
  | deviceSleep | resetFailure | refusedSleep | attemptSleep | backoffSleep =>
      cases a with
      | done =>
          simp only [hpc, Option.some.injEq] at h
          subst h
          simp [RestorePc.committed, RestorePc.owesStart]
      | bool | saved | state => simp only [hpc] at h; contradiction
  | load =>
      cases a with
      | saved c =>
          cases c with
          | none | some =>
              simp only [hpc, Option.some.injEq] at h
              subst h
              simp [RestorePc.committed, RestorePc.owesStart]
      | done | bool | state => simp only [hpc] at h; contradiction
  | refusedStatus | attemptStatus =>
      cases a with
      | state st =>
          cases st with
          | idle | connecting | succeeded | failed =>
              simp only [hpc, Option.some.injEq] at h
              subst h
              simp [RestoreThread.exitIf, RestorePc.committed, RestorePc.owesStart]
      | done | bool | saved => simp only [hpc] at h; contradiction

/-- A step of the restore thread that is no coordinator call. -/
theorem restoreMove_of_resume {s s' : Service} {i : RestoreInput} {a : RestoreAnswer}
    {evs : List Event} (h : s.resume a [] = some (s', evs))
    (hcheck : s.restore.pc ≠ .loopCancelled) (hqueue : ∀ c, s.restore.pc ≠ .queue c)
    (howes : s.restore.pc.owesStart = false) : Effect s (.restore i) s' evs := by
  obtain ⟨t, ht, rfl, rfl⟩ := resume_some h
  obtain ⟨hc, ho⟩ := next_moves ht hcheck hqueue howes
  exact .restoreMove i t hc howes ho

/-- A status call of the restore thread. -/
theorem restoreReport_of_atom {s s' : Service} {a : RestoreAnswer} {evs : List Event}
    (h : s.restoreAtom .connectStatus a = some (s', evs))
    (hcheck : s.restore.pc ≠ .loopCancelled) (hcommitted : s.restore.pc.committed = false)
    (howes : s.restore.pc.owesStart = false) : Effect s (.restore .go) s' evs := by
  obtain ⟨core', t, hstep, ht, rfl⟩ := restoreAtom_some h
  simp only [Core.step, Option.some.injEq, Prod.mk.injEq] at hstep
  obtain ⟨rfl, rfl⟩ := hstep
  have hqueue : ∀ c, s.restore.pc ≠ .queue c := fun c hc => by
    simp [hc, RestorePc.committed] at hcommitted
  obtain ⟨hc, ho⟩ := next_moves ht hcheck hqueue howes
  have hc' : t.pc.committed = false := by
    cases htc : t.pc.committed with
    | false => rfl
    | true => rw [hc htc] at hcommitted; exact hcommitted
  exact .restoreReport t hc' howes ho

/-- The restore thread's atoms by their effect. -/
theorem effect_of_stepRestore {s s' : Service} {i : RestoreInput} {evs : List Event}
    (h : s.stepRestore i = some (s', evs)) : Effect s (.restore i) s' evs := by
  unfold stepRestore at h
  cases hpc : s.restore.pc with
  | loopTest | loopActive | deviceWaiting | attemptTest | attemptActive =>
      cases i with
      | bool b =>
          simp only [hpc] at h
          exact restoreMove_of_resume h (by simp [hpc]) (by simp [hpc]) (by rw [hpc]; rfl)
      | go | saved => simp only [hpc] at h; contradiction
  | loopInteractive | deviceSleep | refusedSleep | attemptSleep | attemptCancelled
  | attemptInteractive | backoffSleep =>
      cases i with
      | go =>
          simp only [hpc] at h
          exact restoreMove_of_resume h (by simp [hpc]) (by simp [hpc]) (by rw [hpc]; rfl)
      | bool | saved => simp only [hpc] at h; contradiction
  | load =>
      cases i with
      | saved c =>
          simp only [hpc] at h
          exact restoreMove_of_resume h (by simp [hpc]) (by simp [hpc]) (by rw [hpc]; rfl)
      | go | bool => simp only [hpc] at h; contradiction
  | loopCancelled =>
      cases i with
      | go =>
          simp only [hpc] at h
          obtain ⟨t, ht, rfl, rfl⟩ := resume_some h
          simp only [RestoreThread.next, hpc, Option.some.injEq] at ht
          cases hflag : s.coord.restoreCancelled with
          | false =>
              refine .restoreChecked t hpc hflag ?_
              simp [← ht, RestoreThread.exitIf, hflag]
          | true =>
              have hret : t.pc = .returned := by simp [← ht, RestoreThread.exitIf, hflag]
              exact .restoreMove _ t (by simp [hret, RestorePc.committed]) (by rw [hpc]; rfl)
                (by rw [hret]; rfl)
      | bool | saved => simp only [hpc] at h; contradiction
  | resetFailure c =>
      cases i with
      | go =>
          simp only [hpc] at h
          obtain ⟨core', t, hstep, ht, rfl⟩ := restoreAtom_some h
          simp only [Core.step, Core.resetFailure, Option.some.injEq, Prod.mk.injEq] at hstep
          obtain ⟨rfl, rfl⟩ := hstep
          simp only [RestoreThread.next, hpc, Option.some.injEq] at ht
          exact .restoreReset c t hpc (by rw [← ht])
      | bool | saved => simp only [hpc] at h; contradiction
  | queue c =>
      cases i with
      | go =>
          simp only [hpc] at h
          obtain ⟨core', t, hstep, ht, rfl⟩ := restoreAtom_some h
          simp only [Core.step, Core.queueConnection, Option.some.injEq] at hstep
          simp only [RestoreThread.next, hpc, Option.some.injEq] at ht
          by_cases hs : s.coord.connectState = .idle
          · simp only [Coordinator.queueConnection_idle hs, Prod.mk.injEq] at hstep
            obtain ⟨rfl, rfl⟩ := hstep
            exact .restoreQueue c t hpc hs (by simp [← ht, hs])
          · simp only [Coordinator.queueConnection_busy hs, Prod.mk.injEq] at hstep
            obtain ⟨rfl, rfl⟩ := hstep
            have hpc' : t.pc = .refusedStatus := by simp [← ht, hs]
            exact .restoreMove _ t (by simp [hpc', RestorePc.committed]) (by rw [hpc]; rfl)
              (by rw [hpc']; rfl)
      | bool | saved => simp only [hpc] at h; contradiction
  | queueMirrorRead =>
      cases i with
      | go =>
          simp only [hpc] at h
          obtain ⟨t, ht, rfl, rfl⟩ := resume_some h
          simp only [RestoreThread.next, hpc, Option.some.injEq] at ht
          exact .restoreMirrorRead t hpc (by rw [← ht])
      | bool | saved => simp only [hpc] at h; contradiction
  | queueMirrorWrite active =>
      cases i with
      | go =>
          simp only [hpc] at h
          obtain ⟨t, ht, rfl, rfl⟩ := resume_some h
          simp only [RestoreThread.next, hpc, Option.some.injEq] at ht
          exact .restoreMirrorWrite active t hpc (by rw [← ht])
      | bool | saved => simp only [hpc] at h; contradiction
  | refusedStatus | attemptStatus =>
      cases i with
      | go =>
          simp only [hpc] at h
          exact restoreReport_of_atom h (by simp [hpc]) (by rw [hpc]; rfl) (by rw [hpc]; rfl)
      | bool | saved => simp only [hpc] at h; contradiction
  | start =>
      cases i with
      | go =>
          simp only [hpc] at h
          obtain ⟨core', t, hstep, ht, rfl⟩ := restoreAtom_some h
          simp only [Core.step, Option.some.injEq, Prod.mk.injEq] at hstep
          obtain ⟨rfl, rfl⟩ := hstep
          simp only [RestoreThread.next, hpc, Option.some.injEq] at ht
          exact .restoreStart t hpc (by rw [← ht])
      | bool | saved => simp only [hpc] at h; contradiction
  | returned => simp only [hpc] at h; contradiction

/-- **Inversion of a step** of the service. -/
theorem effect_of_step {s s' : Service} {a : Label} {evs : List Event}
    (h : s.step a = some (s', evs)) : Effect s a s' evs := by
  cases a with
  | http i => exact effect_of_stepHttp h
  | restore i => exact effect_of_stepRestore h
  | worker =>
      simp only [step] at h
      obtain ⟨core', hstep, rfl⟩ := atom_some h
      exact .worker core' evs hstep
  | connect a =>
      simp only [step] at h
      obtain ⟨core', hstep, rfl⟩ := atom_some h
      exact .connect a core' evs hstep

/-! ## the service refines the coordinator under every order of calls -/

/-- Events of the coordinator, as opposed to those of `do_POST`. -/
def isCore : Event → Bool
  | .responded _ | .started _ => false
  | _ => true

/-- Atoms of the coordinator report its events only. -/
theorem isCore_of_effect {s s' : Core} {a : Action} {evs : List Event}
    (h : Core.Effect s a s' evs) : evs.filter isCore = evs := by
  cases h <;> rfl

/-- **Refinement**: every run of the three threads is, for the coordinator, a
run under some order of calls. -/
theorem refines_core : serviceMachine.Refines coreMachine Service.core isCore where
  init := rfl
  step s a s' evs h := by
    cases effect_of_step h with
    | httpMove | restoreMove | restoreChecked | pageMirrorRead | pageMirrorWrite
    | enqueueMirrorRead | enqueueMirrorWrite | respond | raise | restoreMirrorRead
    | restoreMirrorWrite => exact .inl ⟨rfl, rfl⟩
    | httpReport | restoreReport => exact .inr ⟨.connectStatus, rfl⟩
    | consume hpc hs =>
        refine .inr ⟨.consumeFailure, ?_⟩
        simp only [coreMachine, Core.step, Core.consumeFailure,
          Coordinator.consumeFailure_failed hs]
        rfl
    | resetSucceeded hpc => exact .inr ⟨.resetSucceeded, rfl⟩
    | cancel c hpc => exact .inr ⟨.cancelRestore, rfl⟩
    | enqueueStart c hpc hs =>
        refine .inr ⟨.enqueueInteractive c, ?_⟩
        simp only [coreMachine, Core.step, Core.enqueueInteractive,
          Coordinator.enqueueInteractive_idle hs]
        rfl
    | enqueueDefer c hpc hs =>
        refine .inr ⟨.enqueueInteractive c, ?_⟩
        simp only [coreMachine, Core.step, Core.enqueueInteractive,
          Coordinator.enqueueInteractive_busy hs]
        rfl
    | httpStart tag hpc => exact .inr ⟨.startAfterResponse, rfl⟩
    | restoreReset c t hpc hpc' =>
        refine .inr ⟨.resetFailure, ?_⟩
        by_cases hs : s.coord.connectState = .failed
        · simp only [coreMachine, Core.step, Core.resetFailure, hs, if_true]
          rfl
        · simp only [coreMachine, Core.step, Core.resetFailure, hs, if_false]
          rfl
    | restoreQueue c t hpc hs hpc' =>
        refine .inr ⟨.queueConnection c, ?_⟩
        simp only [coreMachine, Core.step, Core.queueConnection,
          Coordinator.queueConnection_idle hs]
        rfl
    | restoreStart t hpc hpc' => exact .inr ⟨.startAfterResponse, rfl⟩
    | worker core' _ hstep =>
        refine .inr ⟨.work, ?_⟩
        rw [isCore_of_effect (Core.effect_of_step hstep)]
        exact hstep
    | connect a core' _ hstep =>
        refine .inr ⟨.answer a, ?_⟩
        rw [isCore_of_effect (Core.effect_of_step hstep)]
        exact hstep

/-- Invariants of the service are a case analysis of its effects. -/
theorem invariant_of_effect {C : Service → Label → Prop} {I : List Event → Service → Prop}
    (h0 : I [] .fresh)
    (hs : ∀ tr s a s' evs, serviceMachine.Run C tr s → I tr s → C s a → Effect s a s' evs →
      I (tr ++ evs) s')
    {tr : List Event} {s : Service} (h : serviceMachine.Run C tr s) : I tr s :=
  Machine.Run.invariant h0
    (fun tr s a s' evs hr hi hc hstep => hs tr s a s' evs hr hi hc (effect_of_step hstep)) h

/-! ## cutting a trace at an event -/

/-- What an event says about the state before the atom that emitted it. -/
def Cause (s : Service) (a : Label) : Event → Prop
  | .accepted r => (∃ c, s.http = .enqueue c ∧ r = s.core.stamp .interactive c) ∨
      ∃ c, s.restore.pc = .queue c ∧ r = s.core.stamp .restore c
  | .taken r => s.core.worker = .takePending ∧ s.coord.pendingRequest = some r
  | .passed r => s.core.worker = .took r
  | .finished r success message => s.core.worker = .finish r success message
  | .reported st m => st = s.coord.connectState ∧ m = s.coord.stateMessage
  | .consumed m => s.http = .consume ∧ s.coord.connectState = .failed ∧ m = s.coord.stateMessage
  | .cancelled => a = .http .go ∧ ∃ c, s.http = .cancel c
  | .failureReset => (∃ c, s.restore.pc = .resetFailure c) ∧ s.coord.connectState = .failed
  | .responded tag => s.http = .reply tag
  | .started tag => s.http = .start tag

/-- Every event of an atom has its cause. -/
theorem Effect.cause {s s' : Service} {a : Label} {evs : List Event} (h : Effect s a s' evs)
    {e : Event} (he : e ∈ evs) : Cause s a e := by
  cases h with
  | httpReport | restoreReport => rw [List.mem_singleton.mp he]; exact ⟨rfl, rfl⟩
  | consume hpc hs => rw [List.mem_singleton.mp he]; exact ⟨hpc, hs, rfl⟩
  | cancel c hpc => rw [List.mem_singleton.mp he]; exact ⟨rfl, c, hpc⟩
  | enqueueStart c hpc | enqueueDefer c hpc =>
      rw [List.mem_singleton.mp he]; exact .inl ⟨c, hpc, rfl⟩
  | restoreQueue c t hpc => rw [List.mem_singleton.mp he]; exact .inr ⟨c, hpc, rfl⟩
  | respond tag hpc | httpStart tag hpc => rw [List.mem_singleton.mp he]; exact hpc
  | restoreReset c t hpc hpc' =>
      split at he
      · next hs => rw [List.mem_singleton.mp he]; exact ⟨⟨c, hpc⟩, hs⟩
      · contradiction
  | worker core' evs hstep =>
      cases Core.effect_of_step hstep with
      | take r hw hp => rw [List.mem_singleton.mp he]; exact ⟨hw, hp⟩
      | pass r hw | handOver r q ok m hw hp | publish r ok m hw hp =>
          rw [List.mem_singleton.mp he]; exact hw
      | _ => contradiction
  | connect a core' evs hstep =>
      cases Core.effect_of_step hstep with
      | _ => contradiction
  | _ => contradiction

/-- An atom does at most one thing. -/
theorem Effect.length_le_one {s s' : Service} {a : Label} {evs : List Event}
    (h : Effect s a s' evs) : evs.length ≤ 1 := by
  cases h with
  | restoreReset => split <;> simp
  | worker core' evs hstep =>
      cases Core.effect_of_step hstep with
      | _ => simp
  | connect a core' evs hstep =>
      cases Core.effect_of_step hstep with
      | _ => simp
  | _ => simp

/-- **Cut of a trace**: the events before `e` are the trace of a run whose
last state is the cause of `e`. -/
theorem run_before {C : Service → Label → Prop} {tr : List Event} {s : Service}
    (h : serviceMachine.Run C tr s) {pre post : List Event} {e : Event}
    (htr : tr = pre ++ e :: post) :
    ∃ s₀ a, serviceMachine.Run C pre s₀ ∧ C s₀ a ∧ Cause s₀ a e := by
  obtain ⟨tr₀, s₀, a, s₁, before, after, hrun, hc, hstep, rfl⟩ := h.split pre e post htr
  have heff := effect_of_step hstep
  have hlen := heff.length_le_one
  simp only [List.length_append, List.length_cons] at hlen
  have hbefore : before = [] := List.length_eq_zero_iff.mp (by omega)
  rw [hbefore, List.append_nil]
  exact ⟨s₀, a, hrun, hc, heff.cause (by simp)⟩

end Service

end SushidaOs
