import SushidaOs.Machine
import SushidaOs.Wifi.Coordinator

/-!
# SushidaOs.Wifi.Core

The coordinator with its worker, under every order of calls.

`Core` is the coordinator's fields together with the position of the single
`run_worker` thread.  An `Action` is one atom: a critical section executed
by some caller, in any order and any number of times, or the next atom of
the worker.  So a run of `coreMachine` is an interleaving of the worker with
whatever the HTTP and restore threads may call, and what holds of all its
runs holds whatever those threads do.  (`SushidaOs.Wifi.Service` adds the
threads themselves and shows that its runs are runs of `coreMachine`.)

Two things are recorded that the code does not compute.  Each call that
submits a credential stamps it with the number of submissions accepted
before it, so equal credentials submitted twice stay apart; and each atom
reports what it did as an `Event`.
-/

namespace SushidaOs

/-- Who submitted a credential: a POST through `enqueue_interactive`, or the
restore supervisor through `queue_connection`. -/
inductive Origin where
  | interactive
  | restore
  deriving DecidableEq, Repr

/-- An accepted credential with its place in the order of submission. -/
structure Submission extends Credential where
  tag : Nat
  origin : Origin
  deriving DecidableEq, Repr

/-- `origin = .interactive`, as a test. -/
def Submission.isInteractive (r : Submission) : Bool := r.origin = .interactive

/-- What an atom did. -/
inductive Event where
  /-- `queue_connection` returned `True`, or `enqueue_interactive` stored its
  credential. -/
  | accepted (r : Submission)
  /-- `take_pending` gave the request to the worker. -/
  | taken (r : Submission)
  /-- The worker called `self._connect`. -/
  | passed (r : Submission)
  /-- The locked block that ends the attempt was executed. -/
  | finished (r : Submission) (success : Bool) (message : String)
  /-- `connect_status` returned. -/
  | reported (state : ConnectState) (message : String)
  /-- `consume_failure` returned a message. -/
  | consumed (message : String)
  /-- `self._restore_cancelled.set()`. -/
  | cancelled
  /-- `reset_failure` changed the state. -/
  | failureReset
  /-- The `do_POST` of submission `tag` has flushed its response. -/
  | responded (tag : Nat)
  /-- The `do_POST` of submission `tag` has executed
  `start_queued_connection`. -/
  | started (tag : Nat)
  deriving DecidableEq, Repr

/-- The position of the thread in `run_worker`, before its next atom. -/
inductive WorkerPc where
  /-- Before the locked block at the head of the loop. -/
  | loopHead
  /-- Before `take_pending`. -/
  | takePending
  /-- `take_pending` returned a request; before the call of `self._connect`. -/
  | took (r : Submission)
  /-- Inside `self._connect`. -/
  | connecting (r : Submission)
  /-- The attempt is over; before the locked block that ends it. -/
  | finish (r : Submission) (success : Bool) (message : String)
  /-- Before the locked half of `_mirror_progress`. -/
  | mirrorRead
  /-- Before `set_connection_marker`. -/
  | mirrorWrite (active : Bool)
  /-- In `self._request_event.wait()`. -/
  | wait
  /-- Before `self._request_event.clear()`. -/
  | clear
  deriving DecidableEq, Repr

namespace WorkerPc

/-- The request taken and not yet passed to `self._connect`. -/
def untried : WorkerPc → Option Submission
  | took r => some r
  | _ => none

/-- The request taken whose outcome is not yet published. -/
def inHand : WorkerPc → Option Submission
  | took r => some r
  | connecting r => some r
  | finish r _ _ => some r
  | _ => none

end WorkerPc

/-- The coordinator, its worker and the number of submissions so far. -/
structure Core where
  coord : Coordinator Submission
  worker : WorkerPc
  count : Nat

/-- The message `run_worker` publishes when `self._connect` raises. -/
def internalErrorMessage : String :=
  "Wi-Fi接続処理で内部エラーが発生しました。もう一度接続してください。"

/-- What `self._connect` does: return a pair, or raise an `Exception`. -/
inductive ConnectAnswer where
  | returned (success : Bool) (message : String)
  | raised
  deriving DecidableEq, Repr

namespace ConnectAnswer

/-- `success` after the `try` statement of `run_worker`. -/
def success : ConnectAnswer → Bool
  | returned b _ => b
  | raised => false

/-- `message` after the `try` statement of `run_worker`. -/
def message : ConnectAnswer → String
  | returned _ m => m
  | raised => internalErrorMessage

end ConnectAnswer

/-- One atom of the coordinator. -/
inductive Action where
  | connectStatus
  | queueConnection (c : Credential)
  | cancelRestore
  | enqueueInteractive (c : Credential)
  | startAfterResponse
  | consumeFailure
  | resetSucceeded
  | resetFailure
  /-- The worker's next atom outside `self._connect`. -/
  | work
  /-- `self._connect` is over. -/
  | answer (a : ConnectAnswer)
  deriving DecidableEq, Repr

namespace Core

/-- A fresh coordinator whose worker has just been started. -/
def fresh : Core where
  coord := .fresh
  worker := .loopHead
  count := 0

/-- The stamp of the next submission. -/
def stamp (s : Core) (origin : Origin) (c : Credential) : Submission :=
  { c with tag := s.count, origin := origin }

/-- `queue_connection`, up to the release of the lock. -/
def queueConnection (s : Core) (c : Credential) : Core × List Event :=
  let r := s.stamp .restore c
  match s.coord.queueConnection r with
  | (true, coord) => ({ s with coord := coord, count := s.count + 1 }, [.accepted r])
  | (false, coord) => ({ s with coord := coord }, [])

/-- `enqueue_interactive`, from the lock to its release. -/
def enqueueInteractive (s : Core) (c : Credential) : Core × List Event :=
  let r := s.stamp .interactive c
  ({ s with coord := (s.coord.enqueueInteractive r).2, count := s.count + 1 }, [.accepted r])

/-- `consume_failure`, up to the release of the lock. -/
def consumeFailure (s : Core) : Core × List Event :=
  match s.coord.consumeFailure with
  | (some m, coord) => ({ s with coord := coord }, [.consumed m])
  | (none, coord) => ({ s with coord := coord }, [])

/-- `reset_failure`. -/
def resetFailure (s : Core) : Core × List Event :=
  ({ s with coord := s.coord.resetFailure },
    if s.coord.connectState = .failed then [.failureReset] else [])

/-- The worker's next atom; blocked inside `self._connect` and, while the
event is clear, in `wait`. -/
def work (s : Core) : Option (Core × List Event) :=
  match s.worker with
  | .loopHead => some ({ s with coord := s.coord.promoteInteractive, worker := .takePending }, [])
  | .takePending =>
      match s.coord.takePending with
      | (some r, coord) => some ({ s with coord := coord, worker := .took r }, [.taken r])
      | (none, coord) => some ({ s with coord := coord, worker := .wait }, [])
  | .took r => some ({ s with worker := .connecting r }, [.passed r])
  | .connecting _ => none
  | .finish r success message =>
      some ({ s with coord := s.coord.finishAttempt success message, worker := .mirrorRead },
        [.finished r success message])
  | .mirrorRead => some ({ s with worker := .mirrorWrite s.coord.active }, [])
  | .mirrorWrite _ => some ({ s with worker := .loopHead }, [])
  | .wait => if s.coord.requestEvent then some ({ s with worker := .clear }, []) else none
  | .clear => some ({ s with coord := s.coord.clearRequest, worker := .loopHead }, [])

/-- The end of `self._connect`. -/
def answer (s : Core) (a : ConnectAnswer) : Option (Core × List Event) :=
  match s.worker with
  | .connecting r => some ({ s with worker := .finish r a.success a.message }, [])
  | _ => none

/-- One atom. -/
def step (s : Core) : Action → Option (Core × List Event)
  | .connectStatus =>
      some (s, [.reported s.coord.connectStatus.1 s.coord.connectStatus.2])
  | .queueConnection c => some (s.queueConnection c)
  | .cancelRestore => some ({ s with coord := s.coord.cancelRestore }, [.cancelled])
  | .enqueueInteractive c => some (s.enqueueInteractive c)
  | .startAfterResponse => some ({ s with coord := s.coord.startAfterResponse }, [])
  | .consumeFailure => some s.consumeFailure
  | .resetSucceeded => some ({ s with coord := s.coord.resetSucceeded }, [])
  | .resetFailure => some s.resetFailure
  | .work => s.work
  | .answer a => s.answer a

end Core

/-- The coordinator under every order of calls. -/
def coreMachine : Machine Core Action Event where
  init := .fresh
  step := Core.step

namespace Core

/-! ## what a step can do -/

/-- The atoms by their effect, one constructor for each branch that changes
something, with the branch condition.  Every invariant of `coreMachine` is a case
analysis of this. -/
inductive Effect (s : Core) : Action → Core → List Event → Prop
  /-- A call that changes nothing and reports nothing. -/
  | nothing (a : Action) : Effect s a s []
  | report : Effect s .connectStatus s [.reported s.coord.connectState s.coord.stateMessage]
  | queue (c : Credential) (h : s.coord.connectState = .idle) :
      Effect s (.queueConnection c)
        { s with
          coord := { s.coord with
            connectState := .connecting, stateMessage := "",
            pendingRequest := some (s.stamp .restore c) }
          count := s.count + 1 }
        [.accepted (s.stamp .restore c)]
  | cancel : Effect s .cancelRestore { s with coord := s.coord.cancelRestore } [.cancelled]
  | enqueueStart (c : Credential) (h : s.coord.connectState = .idle) :
      Effect s (.enqueueInteractive c)
        { s with
          coord := { s.coord with
            connectState := .connecting, stateMessage := "",
            pendingRequest := some (s.stamp .interactive c), pendingInteractive := none }
          count := s.count + 1 }
        [.accepted (s.stamp .interactive c)]
  | enqueueDefer (c : Credential) (h : s.coord.connectState ≠ .idle) :
      Effect s (.enqueueInteractive c)
        { s with
          coord := { s.coord with pendingInteractive := some (s.stamp .interactive c) }
          count := s.count + 1 }
        [.accepted (s.stamp .interactive c)]
  | start : Effect s .startAfterResponse { s with coord := s.coord.startAfterResponse } []
  | consume (h : s.coord.connectState = .failed) :
      Effect s .consumeFailure
        { s with coord := { s.coord with connectState := .idle, stateMessage := "" } }
        [.consumed s.coord.stateMessage]
  | resetSucceeded (h : s.coord.connectState = .succeeded) :
      Effect s .resetSucceeded
        { s with coord := { s.coord with connectState := .idle, stateMessage := "" } } []
  | resetFailure (h : s.coord.connectState = .failed) :
      Effect s .resetFailure { s with coord := { s.coord with connectState := .idle } }
        [.failureReset]
  | promoteKeep (hw : s.worker = .loopHead)
      (h : s.coord.pendingInteractive = none ∨ s.coord.connectState = .connecting) :
      Effect s .work { s with worker := .takePending } []
  | promoteMove (r : Submission) (hw : s.worker = .loopHead)
      (hp : s.coord.pendingInteractive = some r) (hs : s.coord.connectState ≠ .connecting) :
      Effect s .work
        { s with
          coord := { s.coord with
            pendingInteractive := none, connectState := .connecting, pendingRequest := some r,
            stateMessage :=
              if s.coord.connectState = .idle then s.coord.stateMessage else "" }
          worker := .takePending }
        []
  | take (r : Submission) (hw : s.worker = .takePending) (hp : s.coord.pendingRequest = some r) :
      Effect s .work { s with coord := { s.coord with pendingRequest := none }, worker := .took r }
        [.taken r]
  | takeNone (hw : s.worker = .takePending) (hp : s.coord.pendingRequest = none) :
      Effect s .work { s with worker := .wait } []
  | pass (r : Submission) (hw : s.worker = .took r) :
      Effect s .work { s with worker := .connecting r } [.passed r]
  | handOver (r q : Submission) (success : Bool) (message : String)
      (hw : s.worker = .finish r success message) (hp : s.coord.pendingInteractive = some q) :
      Effect s .work
        { s with
          coord := { s.coord with
            pendingInteractive := none, connectState := .connecting, stateMessage := "",
            pendingRequest := some q, requestEvent := true }
          worker := .mirrorRead }
        [.finished r success message]
  | publish (r : Submission) (success : Bool) (message : String)
      (hw : s.worker = .finish r success message) (hp : s.coord.pendingInteractive = none) :
      Effect s .work
        { s with
          coord := { s.coord with connectState := .ofOutcome success, stateMessage := message }
          worker := .mirrorRead }
        [.finished r success message]
  | mirrorRead (hw : s.worker = .mirrorRead) :
      Effect s .work { s with worker := .mirrorWrite s.coord.active } []
  | mirrorWrite (active : Bool) (hw : s.worker = .mirrorWrite active) :
      Effect s .work { s with worker := .loopHead } []
  | wake (hw : s.worker = .wait) (he : s.coord.requestEvent = true) :
      Effect s .work { s with worker := .clear } []
  | clear (hw : s.worker = .clear) :
      Effect s .work { s with coord := s.coord.clearRequest, worker := .loopHead } []
  | answer (r : Submission) (a : ConnectAnswer) (hw : s.worker = .connecting r) :
      Effect s (.answer a) { s with worker := .finish r a.success a.message } []

/-- The worker's atoms by their effect. -/
theorem effect_of_work {s s' : Core} {evs : List Event} (h : s.work = some (s', evs)) :
    Effect s .work s' evs := by
  unfold work at h
  cases hw : s.worker with
  | loopHead =>
      simp only [hw, Option.some.injEq, Prod.mk.injEq] at h
      obtain ⟨rfl, rfl⟩ := h
      by_cases hk : s.coord.pendingInteractive = none ∨ s.coord.connectState = .connecting
      · rw [Coordinator.promoteInteractive_keep hk]
        exact .promoteKeep hw hk
      · obtain ⟨hp, hs⟩ := not_or.mp hk
        obtain ⟨r, hr⟩ := Option.ne_none_iff_exists'.mp hp
        rw [Coordinator.promoteInteractive_move hr hs]
        exact .promoteMove r hw hr hs
  | takePending =>
      simp only [hw, Coordinator.takePending] at h
      cases hp : s.coord.pendingRequest with
      | none =>
          simp only [hp, Option.some.injEq, Prod.mk.injEq] at h
          obtain ⟨rfl, rfl⟩ := h
          rw [← hp]
          exact .takeNone hw hp
      | some r =>
          simp only [hp, Option.some.injEq, Prod.mk.injEq] at h
          obtain ⟨rfl, rfl⟩ := h
          exact .take r hw hp
  | took r =>
      simp only [hw, Option.some.injEq, Prod.mk.injEq] at h
      obtain ⟨rfl, rfl⟩ := h
      exact .pass r hw
  | connecting r => simp only [hw] at h; contradiction
  | finish r success message =>
      simp only [hw, Option.some.injEq, Prod.mk.injEq] at h
      obtain ⟨rfl, rfl⟩ := h
      cases hp : s.coord.pendingInteractive with
      | none =>
          rw [Coordinator.finishAttempt_publish hp]
          exact .publish r success message hw hp
      | some q =>
          rw [Coordinator.finishAttempt_handOver hp]
          exact .handOver r q success message hw hp
  | mirrorRead =>
      simp only [hw, Option.some.injEq, Prod.mk.injEq] at h
      obtain ⟨rfl, rfl⟩ := h
      exact .mirrorRead hw
  | mirrorWrite active =>
      simp only [hw, Option.some.injEq, Prod.mk.injEq] at h
      obtain ⟨rfl, rfl⟩ := h
      exact .mirrorWrite active hw
  | wait =>
      simp only [hw] at h
      split at h
      · next he =>
          simp only [Option.some.injEq, Prod.mk.injEq] at h
          obtain ⟨rfl, rfl⟩ := h
          exact .wake hw he
      · contradiction
  | clear =>
      simp only [hw, Option.some.injEq, Prod.mk.injEq] at h
      obtain ⟨rfl, rfl⟩ := h
      exact .clear hw

/-- **Inversion of a step**: what an atom did is one of the effects. -/
theorem effect_of_step {s s' : Core} {a : Action} {evs : List Event}
    (h : s.step a = some (s', evs)) : Effect s a s' evs := by
  cases a with
  | connectStatus =>
      simp only [step, Option.some.injEq, Prod.mk.injEq] at h
      obtain ⟨rfl, rfl⟩ := h
      exact .report
  | queueConnection c =>
      simp only [step, queueConnection, Option.some.injEq] at h
      by_cases hi : s.coord.connectState = .idle
      · simp only [Coordinator.queueConnection_idle hi, Prod.mk.injEq] at h
        obtain ⟨rfl, rfl⟩ := h
        exact .queue c hi
      · simp only [Coordinator.queueConnection_busy hi, Prod.mk.injEq] at h
        obtain ⟨rfl, rfl⟩ := h
        exact .nothing _
  | cancelRestore =>
      simp only [step, Option.some.injEq, Prod.mk.injEq] at h
      obtain ⟨rfl, rfl⟩ := h
      exact .cancel
  | enqueueInteractive c =>
      simp only [step, enqueueInteractive, Option.some.injEq, Prod.mk.injEq] at h
      obtain ⟨rfl, rfl⟩ := h
      by_cases hi : s.coord.connectState = .idle
      · rw [Coordinator.enqueueInteractive_idle hi]
        exact .enqueueStart c hi
      · rw [Coordinator.enqueueInteractive_busy hi]
        exact .enqueueDefer c hi
  | startAfterResponse =>
      simp only [step, Option.some.injEq, Prod.mk.injEq] at h
      obtain ⟨rfl, rfl⟩ := h
      exact .start
  | consumeFailure =>
      simp only [step, consumeFailure, Option.some.injEq] at h
      by_cases hf : s.coord.connectState = .failed
      · simp only [Coordinator.consumeFailure_failed hf, Prod.mk.injEq] at h
        obtain ⟨rfl, rfl⟩ := h
        exact .consume hf
      · simp only [Coordinator.consumeFailure_other hf, Prod.mk.injEq] at h
        obtain ⟨rfl, rfl⟩ := h
        exact .nothing _
  | resetSucceeded =>
      simp only [step, Coordinator.resetSucceeded, Option.some.injEq, Prod.mk.injEq] at h
      obtain ⟨rfl, rfl⟩ := h
      by_cases hf : s.coord.connectState = .succeeded
      · rw [if_pos hf]
        exact .resetSucceeded hf
      · rw [if_neg hf]
        exact .nothing _
  | resetFailure =>
      simp only [step, resetFailure, Coordinator.resetFailure, Option.some.injEq,
        Prod.mk.injEq] at h
      obtain ⟨rfl, rfl⟩ := h
      by_cases hf : s.coord.connectState = .failed
      · rw [if_pos hf, if_pos hf]
        exact .resetFailure hf
      · rw [if_neg hf, if_neg hf]
        exact .nothing _
  | work => exact effect_of_work h
  | answer a =>
      simp only [step, answer] at h
      split at h
      · next r hw =>
          simp only [Option.some.injEq, Prod.mk.injEq] at h
          obtain ⟨rfl, rfl⟩ := h
          exact .answer r a hw
      · contradiction

/-- An invariant of every effect holds in every reachable state. -/
theorem invariant_of_effect {C : Core → Action → Prop} {I : List Event → Core → Prop}
    (h0 : I [] .fresh)
    (hs : ∀ tr s a s' evs, I tr s → C s a → Effect s a s' evs → I (tr ++ evs) s')
    {tr : List Event} {s : Core} (h : coreMachine.Run C tr s) : I tr s :=
  Machine.Run.invariant h0
    (fun tr s a s' evs _ hi hc hstep => hs tr s a s' evs hi hc (effect_of_step hstep)) h

end Core

end SushidaOs
