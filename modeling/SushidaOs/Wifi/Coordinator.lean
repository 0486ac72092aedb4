import SushidaOs.Wifi.Types

/-!
# SushidaOs.Wifi.Coordinator

The shared state of `ConnectionCoordinator`
(`sushida_os/wifi/coordinator.py`) and its critical sections.

Every access to the fields happens inside a `with self._state_lock` block or
is a single operation of a `threading.Event`.  Each such block is one
function below, from the fields before it to the fields after it and what
the block computes; these functions are the atoms that the threads of
`SushidaOs.Wifi.Core` and `SushidaOs.Wifi.Service` interleave.  A method
that takes the lock twice, or that does something after releasing it, is a
sequence of such atoms there.

The coordinator never looks inside a request, so the type `ρ` of requests is
a parameter: the code instantiates it with `(ssid, password)` pairs, the
interleaving model with pairs that also carry a submission number.
-/

namespace SushidaOs

/-- The fields of `ConnectionCoordinator`. -/
structure Coordinator (ρ : Type) where
  connectState : ConnectState
  stateMessage : String
  pendingRequest : Option ρ
  pendingInteractive : Option ρ
  requestEvent : Bool
  restoreCancelled : Bool

namespace Coordinator

variable {ρ : Type}

/-- `ConnectionCoordinator.__init__`. -/
def fresh : Coordinator ρ where
  connectState := .idle
  stateMessage := ""
  pendingRequest := none
  pendingInteractive := none
  requestEvent := false
  restoreCancelled := false

/-! ## the methods called by the HTTP and restore threads -/

/-- `connect_status`. -/
def connectStatus (c : Coordinator ρ) : ConnectState × String :=
  (c.connectState, c.stateMessage)

/-- The locked half of `_mirror_progress`: whether the marker should exist. -/
def active (c : Coordinator ρ) : Bool := c.connectState = .connecting

/-- The locked part of `queue_connection`. -/
def queueConnection (r : ρ) (c : Coordinator ρ) : Bool × Coordinator ρ :=
  if c.connectState ≠ .idle then (false, c)
  else (true, { c with
    connectState := .connecting, stateMessage := "", pendingRequest := some r })

/-- `self._restore_cancelled.set()`, the first statement of
`enqueue_interactive`. -/
def cancelRestore (c : Coordinator ρ) : Coordinator ρ := { c with restoreCancelled := true }

/-- The locked part of `enqueue_interactive`; the flag is `started`. -/
def enqueueInteractive (r : ρ) (c : Coordinator ρ) : Bool × Coordinator ρ :=
  if c.connectState = .idle then
    (true, { c with
      connectState := .connecting, stateMessage := "", pendingRequest := some r,
      pendingInteractive := none })
  else (false, { c with pendingInteractive := some r })

/-- `start_after_response`. -/
def startAfterResponse (c : Coordinator ρ) : Coordinator ρ := { c with requestEvent := true }

/-- The locked part of `consume_failure`; `none` is the early `return None`. -/
def consumeFailure (c : Coordinator ρ) : Option String × Coordinator ρ :=
  if c.connectState ≠ .failed then (none, c)
  else (some c.stateMessage, { c with connectState := .idle, stateMessage := "" })

/-- The locked part of `reset_succeeded`. -/
def resetSucceeded (c : Coordinator ρ) : Coordinator ρ :=
  if c.connectState = .succeeded then { c with connectState := .idle, stateMessage := "" }
  else c

/-- `reset_failure`.  Unlike its two siblings it leaves the message. -/
def resetFailure (c : Coordinator ρ) : Coordinator ρ :=
  if c.connectState = .failed then { c with connectState := .idle } else c

/-- `interactive_pending`. -/
def interactivePending (c : Coordinator ρ) : Bool := c.pendingInteractive.isSome

/-! ## the sections of `run_worker` -/

/-- The locked block at the head of the loop of `run_worker`: a stale
terminal state is consumed, then a pending interactive request is promoted
if the state is idle. -/
def promoteInteractive (c : Coordinator ρ) : Coordinator ρ :=
  match c.pendingInteractive with
  | none => c
  | some r =>
      let c₁ := if c.connectState = .failed ∨ c.connectState = .succeeded then
        { c with connectState := .idle, stateMessage := "" } else c
      if c₁.connectState = .idle then
        { c₁ with pendingInteractive := none, connectState := .connecting,
                  pendingRequest := some r }
      else c₁

/-- `take_pending`. -/
def takePending (c : Coordinator ρ) : Option ρ × Coordinator ρ :=
  (c.pendingRequest, { c with pendingRequest := none })

/-- `self._request_event.clear()`. -/
def clearRequest (c : Coordinator ρ) : Coordinator ρ := { c with requestEvent := false }

/-- The locked block at the end of an attempt: hand over to a pending
interactive request, or publish the outcome. -/
def finishAttempt (success : Bool) (message : String) (c : Coordinator ρ) : Coordinator ρ :=
  match c.pendingInteractive with
  | some r => { c with
      pendingInteractive := none, connectState := .connecting, stateMessage := "",
      pendingRequest := some r, requestEvent := true }
  | none => { c with connectState := .ofOutcome success, stateMessage := message }

/-! ## what each section does to the fields

Equations for the sections that branch, one per branch; callers rewrite with
these and do not unfold the definitions. -/

theorem queueConnection_idle {r : ρ} {c : Coordinator ρ} (h : c.connectState = .idle) :
    c.queueConnection r = (true, { c with
      connectState := .connecting, stateMessage := "", pendingRequest := some r }) := by
  simp [queueConnection, h]

/-- A saved connection is not queued beside another one. -/
theorem queueConnection_busy {r : ρ} {c : Coordinator ρ} (h : c.connectState ≠ .idle) :
    c.queueConnection r = (false, c) := by
  simp [queueConnection, h]

/-- A request starts at once while nothing is running. -/
theorem enqueueInteractive_idle {r : ρ} {c : Coordinator ρ} (h : c.connectState = .idle) :
    c.enqueueInteractive r = (true, { c with
      connectState := .connecting, stateMessage := "", pendingRequest := some r,
      pendingInteractive := none }) := by
  simp [enqueueInteractive, h]

/-- Otherwise it is the one that waits. -/
theorem enqueueInteractive_busy {r : ρ} {c : Coordinator ρ} (h : c.connectState ≠ .idle) :
    c.enqueueInteractive r = (false, { c with pendingInteractive := some r }) := by
  simp [enqueueInteractive, h]

/-- A failure is shown once. -/
theorem consumeFailure_failed {c : Coordinator ρ} (h : c.connectState = .failed) :
    c.consumeFailure =
      (some c.stateMessage, { c with connectState := .idle, stateMessage := "" }) := by
  simp [consumeFailure, h]

/-- Where there is no failure nothing changes. -/
theorem consumeFailure_other {c : Coordinator ρ} (h : c.connectState ≠ .failed) :
    c.consumeFailure = (none, c) := by
  simp [consumeFailure, h]

/-- The loop head does nothing without an interactive request, or while an
attempt is queued or running. -/
theorem promoteInteractive_keep {c : Coordinator ρ}
    (h : c.pendingInteractive = none ∨ c.connectState = .connecting) :
    c.promoteInteractive = c := by
  unfold promoteInteractive
  cases hp : c.pendingInteractive with
  | none => rfl
  | some r =>
      have hs : c.connectState = .connecting := by simpa [hp] using h
      simp [hs]

/-- Otherwise it moves the request over; the message is cleared only when a
terminal state was consumed. -/
theorem promoteInteractive_move {c : Coordinator ρ} {r : ρ} (hp : c.pendingInteractive = some r)
    (hs : c.connectState ≠ .connecting) :
    c.promoteInteractive = { c with
      pendingInteractive := none, connectState := .connecting, pendingRequest := some r,
      stateMessage := if c.connectState = .idle then c.stateMessage else "" } := by
  unfold promoteInteractive
  simp only [hp]
  cases hc : c.connectState with
  | idle => simp [hc]
  | connecting => exact absurd hc hs
  | succeeded => simp
  | failed => simp

/-- A finished attempt makes room for the request that waits. -/
theorem finishAttempt_handOver {c : Coordinator ρ} {r : ρ} {success : Bool} {message : String}
    (hp : c.pendingInteractive = some r) :
    c.finishAttempt success message = { c with
      pendingInteractive := none, connectState := .connecting, stateMessage := "",
      pendingRequest := some r, requestEvent := true } := by
  simp [finishAttempt, hp]

/-- Without one its outcome is published. -/
theorem finishAttempt_publish {c : Coordinator ρ} {success : Bool} {message : String}
    (hp : c.pendingInteractive = none) :
    c.finishAttempt success message =
      { c with connectState := .ofOutcome success, stateMessage := message } := by
  simp [finishAttempt, hp]

/-! The two resets change the state and the message only. -/

@[simp] theorem resetSucceeded_pendingRequest (c : Coordinator ρ) :
    c.resetSucceeded.pendingRequest = c.pendingRequest := by
  unfold resetSucceeded; split <;> rfl

@[simp] theorem resetSucceeded_pendingInteractive (c : Coordinator ρ) :
    c.resetSucceeded.pendingInteractive = c.pendingInteractive := by
  unfold resetSucceeded; split <;> rfl

@[simp] theorem resetSucceeded_requestEvent (c : Coordinator ρ) :
    c.resetSucceeded.requestEvent = c.requestEvent := by
  unfold resetSucceeded; split <;> rfl

@[simp] theorem resetSucceeded_restoreCancelled (c : Coordinator ρ) :
    c.resetSucceeded.restoreCancelled = c.restoreCancelled := by
  unfold resetSucceeded; split <;> rfl

@[simp] theorem resetFailure_pendingRequest (c : Coordinator ρ) :
    c.resetFailure.pendingRequest = c.pendingRequest := by
  unfold resetFailure; split <;> rfl

@[simp] theorem resetFailure_pendingInteractive (c : Coordinator ρ) :
    c.resetFailure.pendingInteractive = c.pendingInteractive := by
  unfold resetFailure; split <;> rfl

@[simp] theorem resetFailure_requestEvent (c : Coordinator ρ) :
    c.resetFailure.requestEvent = c.requestEvent := by
  unfold resetFailure; split <;> rfl

@[simp] theorem resetFailure_restoreCancelled (c : Coordinator ρ) :
    c.resetFailure.restoreCancelled = c.restoreCancelled := by
  unfold resetFailure; split <;> rfl

/-- Neither reset enters or leaves `connecting`. -/
@[simp] theorem resetSucceeded_active (c : Coordinator ρ) :
    c.resetSucceeded.active = c.active := by
  unfold resetSucceeded
  split
  · next h => simp [active, h]
  · rfl

@[simp] theorem resetFailure_active (c : Coordinator ρ) : c.resetFailure.active = c.active := by
  unfold resetFailure
  split
  · next h => simp [active, h]
  · rfl

end Coordinator

end SushidaOs
