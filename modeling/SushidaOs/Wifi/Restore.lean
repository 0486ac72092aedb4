import Mathlib.Algebra.Order.Ring.Rat
import SushidaOs.Wifi.Types

/-!
# SushidaOs.Wifi.Restore

The program of the restore supervisor `restore_saved_connection`
(`sushida_os/wifi/restore.py`), as a thread that makes calls and continues
with their answers.

`RestorePc` is the call the thread makes next; `RestoreThread.next` is what
it does with the answer.  Who answers is left open: `SushidaOs.Wifi.Service`
lets the shared coordinator answer the coordinator calls and the environment
everything else (the clock, `nmcli`, the credential file).
-/

namespace SushidaOs

/-- The next call of `restore_saved_connection`. -/
inductive RestorePc where
  /-- `monotonic() < deadline`, in the test of the outer loop. -/
  | loopTest
  /-- The three early exits at the top of an iteration. -/
  | loopCancelled
  | loopActive
  | loopInteractive
  /-- `nmcli.wifi_device_waiting()`. -/
  | deviceWaiting
  /-- `sleep(2.0)` before `continue`. -/
  | deviceSleep
  /-- `storage.load_credentials()`. -/
  | load
  /-- `coordinator._reset_failure()`, with the loaded credential. -/
  | resetFailure (saved : Credential)
  /-- `coordinator.queue_connection(*saved)`, up to the release of the lock. -/
  | queue (saved : Credential)
  /-- The two halves of `_mirror_progress` in an accepted `queue_connection`. -/
  | queueMirrorRead
  | queueMirrorWrite (active : Bool)
  /-- `connect_status()` after a refusal. -/
  | refusedStatus
  /-- `sleep(1.0)` before `continue`. -/
  | refusedSleep
  /-- `coordinator.start_queued_connection()`. -/
  | start
  /-- `monotonic() < deadline`, in the test of the inner loop. -/
  | attemptTest
  | attemptSleep
  | attemptCancelled
  | attemptActive
  | attemptInteractive
  | attemptStatus
  /-- `sleep(backoff)`. -/
  | backoffSleep
  | returned
  deriving DecidableEq, Repr

/-- What a call answers. -/
inductive RestoreAnswer where
  | done
  | bool (b : Bool)
  | saved (c : Option Credential)
  | state (st : ConnectState)
  deriving DecidableEq, Repr

/-- `MAX_RETRIES`. -/
def maxRetries : Nat := 8

/-- `BACKOFF_MIN` and `BACKOFF_MAX`, in seconds. -/
def backoffMin : ℚ := 2
def backoffMax : ℚ := 16

/-- The thread: its next call and its local variables. -/
structure RestoreThread where
  pc : RestorePc
  retries : Nat
  backoff : ℚ

namespace RestoreThread

/-- The thread before the first test of the outer loop. -/
def start : RestoreThread where
  pc := .loopTest
  retries := 0
  backoff := backoffMin

/-- Return from the supervisor on `b`, else go on. -/
def exitIf (t : RestoreThread) (b : Bool) (pc : RestorePc) : RestoreThread :=
  { t with pc := if b then .returned else pc }

/-- Continue with the answer of the next call; `none` when the call does not
answer like this. -/
def next (t : RestoreThread) (a : RestoreAnswer) : Option RestoreThread :=
  match t.pc, a with
  | .loopTest, .bool before => some (t.exitIf (!(before && t.retries < maxRetries)) .loopCancelled)
  | .loopCancelled, .bool b => some (t.exitIf b .loopActive)
  | .loopActive, .bool b => some (t.exitIf b .loopInteractive)
  | .loopInteractive, .bool b => some (t.exitIf b .deviceWaiting)
  | .deviceWaiting, .bool b => some { t with pc := if b then .deviceSleep else .load }
  | .deviceSleep, .done => some { t with pc := .loopTest }
  | .load, .saved none => some { t with pc := .returned }
  | .load, .saved (some c) => some { t with pc := .resetFailure c }
  | .resetFailure c, .done => some { t with pc := .queue c }
  | .queue _, .bool accepted =>
      some { t with pc := if accepted then .queueMirrorRead else .refusedStatus }
  | .queueMirrorRead, .bool active => some { t with pc := .queueMirrorWrite active }
  | .queueMirrorWrite _, .done => some { t with pc := .start }
  | .refusedStatus, .state st => some (t.exitIf (st = .succeeded) .refusedSleep)
  | .refusedSleep, .done => some { t with pc := .loopTest }
  | .start, .done => some { t with pc := .attemptTest, retries := t.retries + 1 }
  | .attemptTest, .bool before =>
      some { t with pc := if before then .attemptSleep else .backoffSleep }
  | .attemptSleep, .done => some { t with pc := .attemptCancelled }
  | .attemptCancelled, .bool b => some (t.exitIf b .attemptActive)
  | .attemptActive, .bool b => some (t.exitIf b .attemptInteractive)
  | .attemptInteractive, .bool b => some (t.exitIf b .attemptStatus)
  | .attemptStatus, .state .connecting => some { t with pc := .attemptTest }
  | .attemptStatus, .state st => some (t.exitIf (st = .succeeded) .backoffSleep)
  | .backoffSleep, .done =>
      some { t with pc := .loopTest, backoff := min (t.backoff * 1.5) backoffMax }
  | _, _ => none

end RestoreThread

end SushidaOs
