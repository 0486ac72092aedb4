import Mathlib.Data.Rat.Floor
import Mathlib.Tactic.Linarith
import Mathlib.Tactic.NormNum
import SushidaOs.Wifi.Restore

/-!
# SushidaOs.Wifi.Deadline

How long `restore_saved_connection` runs, and how often it tries: the thread of
`SushidaOs.Wifi.Restore` with a clock.  Every call is answered by the
environment, also those of the coordinator; only the two tests against the
deadline follow from the clock.
-/

namespace SushidaOs

/-- An answer of the environment to whichever call is made. -/
structure RestoreReply where
  flag : Bool
  saved : Option Credential
  state : ConnectState

namespace RestorePc

/-- Between the test of the outer loop and the count of the attempt. -/
def admitted : RestorePc → Nat
  | .loopCancelled | .loopActive | .loopInteractive | .deviceWaiting | .load | .resetFailure _
  | .queue _ | .queueMirrorRead | .queueMirrorWrite _ | .start => 1
  | _ => 0

/-- Between the accepted request and the count of the attempt. -/
def queued : RestorePc → Nat
  | .queueMirrorRead | .queueMirrorWrite _ | .start => 1
  | _ => 0

/-- A bound for the calls up to the end of the next sleep. -/
def callsToSleep : RestorePc → Nat
  | .loopTest => 13
  | .loopCancelled => 12
  | .loopActive => 11
  | .loopInteractive => 10
  | .deviceWaiting => 9
  | .load => 8
  | .resetFailure _ => 7
  | .queue _ | .attemptCancelled => 6
  | .queueMirrorRead | .attemptActive => 5
  | .queueMirrorWrite _ | .attemptInteractive => 4
  | .start | .attemptStatus => 3
  | .refusedStatus | .attemptTest => 2
  | .deviceSleep | .refusedSleep | .attemptSleep | .backoffSleep => 1
  | .returned => 0

/-- A bound for the calls that are left once the deadline has passed. -/
def callsToReturn : RestorePc → Nat
  | .loopCancelled => 13
  | .loopActive => 12
  | .loopInteractive => 11
  | .deviceWaiting => 10
  | .load => 9
  | .resetFailure _ | .attemptSleep => 8
  | .queue _ | .attemptCancelled => 7
  | .queueMirrorRead | .attemptActive => 6
  | .queueMirrorWrite _ | .attemptInteractive => 5
  | .start | .attemptStatus => 4
  | .refusedStatus | .attemptTest => 3
  | .deviceSleep | .refusedSleep | .backoffSleep => 2
  | .loopTest => 1
  | .returned => 0

/-- How far behind the deadline a call is made when only sleeping takes time. -/
def overshoot : RestorePc → ℚ
  | .attemptCancelled | .attemptActive | .attemptInteractive | .attemptStatus | .attemptTest
  | .backoffSleep => 1
  | .loopTest | .returned => 17
  | _ => 0

/-- An attempt is admitted before it is queued. -/
theorem queued_le_admitted (pc : RestorePc) : pc.queued ≤ pc.admitted := by
  cases pc <;> simp [queued, admitted]

/-- Between two sleeps there are no more than 13 calls. -/
theorem callsToSleep_le (pc : RestorePc) : pc.callsToSleep ≤ 13 := by
  cases pc <;> simp [callsToSleep]

/-- Nor are there more before the thread returns. -/
theorem callsToReturn_le (pc : RestorePc) : pc.callsToReturn ≤ 13 := by
  cases pc <;> simp [callsToReturn]

theorem overshoot_nonneg (pc : RestorePc) : 0 ≤ pc.overshoot := by
  cases pc <;> norm_num [overshoot]

/-- The thread is never more than 17 s behind the deadline. -/
theorem overshoot_le (pc : RestorePc) : pc.overshoot ≤ 17 := by
  cases pc <;> norm_num [overshoot]

end RestorePc

namespace RestoreThread

/-- The answer to the next call: `before` says that the deadline has not
passed. -/
def answer (t : RestoreThread) (before : Bool) (reply : RestoreReply) : RestoreAnswer :=
  match t.pc with
  | .loopTest | .attemptTest => .bool before
  | .loopCancelled | .loopActive | .loopInteractive | .deviceWaiting | .queue _
  | .queueMirrorRead | .attemptCancelled | .attemptActive | .attemptInteractive =>
      .bool reply.flag
  | .load => .saved reply.saved
  | .refusedStatus | .attemptStatus => .state reply.state
  | .deviceSleep | .resetFailure _ | .queueMirrorWrite _ | .refusedSleep | .start
  | .attemptSleep | .backoffSleep | .returned => .done

/-- The thread after its next call; it stays where it is once it has
returned. -/
def call (t : RestoreThread) (before : Bool) (reply : RestoreReply) : RestoreThread :=
  (t.next (t.answer before reply)).getD t

/-- The seconds the next call sleeps. -/
def sleeps (t : RestoreThread) : ℚ :=
  match t.pc with
  | .deviceSleep => 2
  | .refusedSleep | .attemptSleep => 1
  | .backoffSleep => t.backoff
  | _ => 0

/-- The next call is `queue_connection`, and it accepts. -/
def accepts (t : RestoreThread) (reply : RestoreReply) : Bool :=
  match t.pc with
  | .queue _ => reply.flag
  | _ => false

/-! ## one call -/

section

variable (t : RestoreThread) (before : Bool) (reply : RestoreReply)

/-- Every call is one the thread can continue from. -/
theorem next_answer (ht : t.pc ≠ .returned) :
    t.next (t.answer before reply) = some (t.call before reply) := by
  have hsome : (t.next (t.answer before reply)).isSome = true := by
    rcases t with ⟨pc, retries, backoff⟩
    rcases reply with ⟨flag, saved, state⟩
    cases pc <;> cases state <;> cases saved <;> simp_all [next, answer]
  obtain ⟨t', ht'⟩ := Option.isSome_iff_exists.mp hsome
  rw [call, ht', Option.getD_some]

/-- A thread that has returned does nothing. -/
theorem call_returned (ht : t.pc = .returned) : t.call before reply = t := by
  rcases t with ⟨pc, retries, backoff⟩
  subst ht
  rfl

/-- The test of the outer loop holds. -/
theorem call_enter {t : RestoreThread} (ht : t.pc = .loopTest) (hr : t.retries < maxRetries) :
    t.call true reply = { t with pc := .loopCancelled } := by
  rcases t with ⟨pc, retries, backoff⟩
  subst ht
  have htest : (!(true && decide (retries < maxRetries))) = false := by simpa using hr
  simp only [call, answer, next, exitIf, htest, Option.getD_some, Bool.false_eq_true, if_false]

/-- The test of the outer loop fails. -/
theorem call_leave {t : RestoreThread} {before : Bool} (ht : t.pc = .loopTest)
    (hr : ¬(before = true ∧ t.retries < maxRetries)) :
    t.call before reply = { t with pc := .returned } := by
  rcases t with ⟨pc, retries, backoff⟩
  subst ht
  have htest : (!(before && decide (retries < maxRetries))) = true := by
    rw [Bool.not_eq_true', ← Bool.not_eq_true, Bool.and_eq_true, decide_eq_true_eq]
    exact hr
  simp only [call, answer, next, exitIf, htest, Option.getD_some, if_true]

/-- The pause grows where it is slept. -/
theorem call_backoff : (t.call before reply).backoff =
    if t.pc = .backoffSleep then min (t.backoff * 1.5) backoffMax else t.backoff := by
  rcases t with ⟨pc, retries, backoff⟩
  rcases reply with ⟨flag, saved, state⟩
  cases pc with
  | load => cases saved <;> rfl
  | attemptStatus => cases state <;> rfl
  | _ => rfl

/-- The outer loop is entered with an attempt left, and the count uses it up. -/
theorem call_admitted (h : t.retries + t.pc.admitted ≤ maxRetries) :
    (t.call before reply).retries + (t.call before reply).pc.admitted ≤ maxRetries := by
  by_cases ht : t.pc = .loopTest
  · by_cases hr : before = true ∧ t.retries < maxRetries
    · rw [hr.1, call_enter reply ht hr.2]
      exact hr.2
    · rw [call_leave reply ht hr]
      exact le_trans (Nat.le_add_right _ _) h
  rcases t with ⟨pc, retries, backoff⟩
  rcases reply with ⟨flag, saved, state⟩
  have hr : retries ≤ maxRetries := le_trans (Nat.le_add_right _ _) h
  cases pc with
  | loopTest => exact absurd rfl ht
  | load => cases saved <;> first | exact h | exact hr
  | refusedStatus | attemptStatus => cases state <;> exact hr
  | attemptTest => cases before <;> exact hr
  | _ => cases flag <;> first | exact h | exact hr

/-- An accepted attempt is counted once. -/
theorem call_accepted : (t.call before reply).retries + (t.call before reply).pc.queued =
    t.retries + t.pc.queued + (t.accepts reply).toNat := by
  by_cases ht : t.pc = .loopTest
  · have haccepts : t.accepts reply = false := by rw [accepts, ht]
    by_cases hr : before = true ∧ t.retries < maxRetries
    · rw [hr.1, call_enter reply ht hr.2, haccepts, ht]
      rfl
    · rw [call_leave reply ht hr, haccepts, ht]
      rfl
  rcases t with ⟨pc, retries, backoff⟩
  rcases reply with ⟨flag, saved, state⟩
  cases pc with
  | loopTest => exact absurd rfl ht
  | load => cases saved <;> rfl
  | refusedStatus | attemptStatus => cases state <;> rfl
  | attemptTest => cases before <;> rfl
  | _ => cases flag <;> rfl

/-- Before the deadline the calls lead to a sleep. -/
theorem call_callsToSleep (ht : t.pc ≠ .returned) (hsleep : t.pc.callsToSleep ≠ 1) :
    (t.call true reply).pc.callsToSleep < t.pc.callsToSleep := by
  by_cases htest : t.pc = .loopTest
  · by_cases hr : t.retries < maxRetries
    · rw [call_enter reply htest hr, htest]
      exact Nat.le_of_ble_eq_true rfl
    · rw [call_leave reply htest (by simpa using hr), htest]
      exact Nat.le_of_ble_eq_true rfl
  rcases t with ⟨pc, retries, backoff⟩
  rcases reply with ⟨flag, saved, state⟩
  cases pc with
  | returned => exact absurd rfl ht
  | loopTest => exact absurd rfl htest
  | deviceSleep | refusedSleep | attemptSleep | backoffSleep => exact absurd rfl hsleep
  | load => cases saved <;> exact Nat.le_of_ble_eq_true rfl
  | refusedStatus | attemptStatus => cases state <;> exact Nat.le_of_ble_eq_true rfl
  | _ => cases flag <;> exact Nat.le_of_ble_eq_true rfl

/-- Past the deadline they lead to the end. -/
theorem call_callsToReturn (ht : t.pc ≠ .returned) :
    (t.call false reply).pc.callsToReturn < t.pc.callsToReturn := by
  rcases t with ⟨pc, retries, backoff⟩
  rcases reply with ⟨flag, saved, state⟩
  cases pc with
  | returned => exact absurd rfl ht
  | load => cases saved <;> exact Nat.le_of_ble_eq_true rfl
  | refusedStatus | attemptStatus => cases state <;> exact Nat.le_of_ble_eq_true rfl
  | _ => cases flag <;> exact Nat.le_of_ble_eq_true rfl

/-- Only the two tests look at the clock; any other call, and a test that fails,
takes no more time than the bounds allow. -/
theorem call_overshoot (hbackoff : t.backoff ≤ backoffMax)
    (htest : before = true → t.pc ≠ .loopTest ∧ t.pc ≠ .attemptTest) :
    t.sleeps + t.pc.overshoot ≤ (t.call before reply).pc.overshoot := by
  rcases t with ⟨pc, retries, backoff⟩
  rcases reply with ⟨flag, saved, state⟩
  cases pc with
  | loopTest =>
      cases before with
      | false => norm_num [sleeps, call, answer, next, exitIf, RestorePc.overshoot]
      | true => exact absurd rfl (htest rfl).1
  | attemptTest =>
      cases before with
      | false => norm_num [sleeps, call, answer, next, exitIf, RestorePc.overshoot]
      | true => exact absurd rfl (htest rfl).2
  | backoffSleep =>
      simp only [backoffMax] at hbackoff
      simp only [sleeps, call, answer, next, RestorePc.overshoot, Option.getD_some]
      linarith
  | deviceSleep => norm_num [sleeps, call, answer, next, RestorePc.overshoot]
  | load => cases saved <;> norm_num [sleeps, call, answer, next, RestorePc.overshoot]
  | refusedStatus | attemptStatus =>
      cases state <;> simp [sleeps, call, answer, next, exitIf, RestorePc.overshoot]
  | _ => cases flag <;> simp [sleeps, call, answer, next, exitIf, RestorePc.overshoot]

end

/-- A sleep takes a second at least. -/
theorem one_le_sleeps {t : RestoreThread} (hbackoff : backoffMin ≤ t.backoff)
    (h : t.pc.callsToSleep = 1) : 1 ≤ t.sleeps := by
  rcases t with ⟨pc, retries, backoff⟩
  simp only [backoffMin] at hbackoff
  cases pc <;> simp_all [RestorePc.callsToSleep, sleeps]
  linarith

theorem sleeps_nonneg {t : RestoreThread} (hbackoff : backoffMin ≤ t.backoff) :
    0 ≤ t.sleeps := by
  rcases t with ⟨pc, retries, backoff⟩
  simp only [backoffMin] at hbackoff
  cases pc <;> simp [sleeps]
  linarith

end RestoreThread

/-! ## a run -/

/-- What the supervisor meets: the reading of `monotonic()` that sets the
deadline, the clock when the `n`-th call is made, and the answer to it. -/
structure RestoreEnv where
  started : ℚ
  clock : Nat → ℚ
  reply : Nat → RestoreReply

namespace RestoreEnv

/-- `deadline = monotonic() + 120.0`. -/
def deadline (e : RestoreEnv) : ℚ := e.started + 120

/-- The thread before its `n`-th call. -/
def thread (e : RestoreEnv) : Nat → RestoreThread
  | 0 => .start
  | n + 1 => (e.thread n).call (e.clock n < e.deadline) (e.reply n)

/-- The accepted `queue_connection` calls among the first `n` calls. -/
def accepted (e : RestoreEnv) (n : Nat) : Nat :=
  (List.range n).countP fun i => (e.thread i).accepts (e.reply i)

/-- The seconds slept after the attempts that ended, among the first `n` calls. -/
def backoffs (e : RestoreEnv) (n : Nat) : List ℚ :=
  (List.range n).filterMap fun i =>
    if (e.thread i).pc = .backoffSleep then some (e.thread i).backoff else none

/-- Sleeping moves the clock by at least what was asked, and nothing moves it
back. -/
structure Forward (e : RestoreEnv) : Prop where
  started : e.started ≤ e.clock 0
  sleeps : ∀ n, e.clock n + (e.thread n).sleeps ≤ e.clock (n + 1)

/-- Only sleeping moves the clock, and by exactly what was asked. -/
structure OnlySleeps (e : RestoreEnv) : Prop where
  started : e.clock 0 = e.started
  sleeps : ∀ n, e.clock (n + 1) = e.clock n + (e.thread n).sleeps

variable {e : RestoreEnv}

/-- The pause stays between its bounds. -/
theorem backoff_bounds (e : RestoreEnv) (n : Nat) :
    backoffMin ≤ (e.thread n).backoff ∧ (e.thread n).backoff ≤ backoffMax := by
  induction n with
  | zero => norm_num [thread, RestoreThread.start, backoffMin, backoffMax]
  | succ n ih =>
      simp only [backoffMin, backoffMax] at ih ⊢
      rw [thread, RestoreThread.call_backoff]
      split
      · refine ⟨le_min ?_ ?_, min_le_right _ _⟩
        · linarith
        · norm_num [backoffMax]
      · exact ih

/-- The pause never shrinks. -/
theorem backoff_mono (e : RestoreEnv) (n : Nat) :
    (e.thread n).backoff ≤ (e.thread (n + 1)).backoff := by
  have hbounds := e.backoff_bounds n
  rw [thread, RestoreThread.call_backoff]
  split
  · simp only [backoffMin] at hbounds
    refine le_min ?_ hbounds.2
    linarith
  · exact le_rfl

/-- **Attempts**: the accepted requests are the attempts that were counted and
the one that is about to be. -/
theorem accepted_eq (e : RestoreEnv) (n : Nat) :
    e.accepted n = (e.thread n).retries + (e.thread n).pc.queued := by
  induction n with
  | zero => rfl
  | succ n ih =>
      rw [thread, RestoreThread.call_accepted, ← ih, accepted, accepted, List.range_succ,
        List.countP_append, List.countP_singleton]
      cases (e.thread n).accepts (e.reply n) <;> rfl

/-- No more attempts are admitted than `MAX_RETRIES`. -/
theorem admitted_le (e : RestoreEnv) (n : Nat) :
    (e.thread n).retries + (e.thread n).pc.admitted ≤ maxRetries := by
  induction n with
  | zero => exact Nat.zero_le maxRetries
  | succ n ih => exact RestoreThread.call_admitted _ _ _ ih

/-- So no more are accepted. -/
theorem accepted_le (e : RestoreEnv) (n : Nat) : e.accepted n ≤ maxRetries := by
  rw [accepted_eq]
  exact le_trans (Nat.add_le_add_left (RestorePc.queued_le_admitted _) _) (e.admitted_le n)

/-- The pauses up to the next call. -/
theorem backoffs_succ (e : RestoreEnv) (n : Nat) : e.backoffs (n + 1) = e.backoffs n ++
    if (e.thread n).pc = .backoffSleep then [(e.thread n).backoff] else [] := by
  rw [backoffs, List.range_succ, List.filterMap_append, ← backoffs]
  by_cases h : (e.thread n).pc = .backoffSleep <;> simp [h]

/-- What was slept after the attempts so far grew up to the next back-off. -/
theorem backoffs_sorted (e : RestoreEnv) (n : Nat) :
    (e.backoffs n).Pairwise (· ≤ ·) ∧
      ∀ d ∈ e.backoffs n, backoffMin ≤ d ∧ d ≤ (e.thread n).backoff := by
  induction n with
  | zero => simp [backoffs]
  | succ n ih =>
      obtain ⟨hsorted, hbounds⟩ := ih
      have hmono := e.backoff_mono n
      rw [backoffs_succ]
      split
      · refine ⟨?_, ?_⟩
        · rw [List.pairwise_append]
          refine ⟨hsorted, List.pairwise_singleton _ _, fun d hd d' hd' => ?_⟩
          rw [List.mem_singleton] at hd'
          rw [hd']
          exact (hbounds d hd).2
        · intro d hd
          rw [List.mem_append, List.mem_singleton] at hd
          rcases hd with hd | rfl
          · exact ⟨(hbounds d hd).1, (hbounds d hd).2.trans hmono⟩
          · exact ⟨(e.backoff_bounds n).1, hmono⟩
      · rw [List.append_nil]
        exact ⟨hsorted, fun d hd => ⟨(hbounds d hd).1, (hbounds d hd).2.trans hmono⟩⟩

/-! ## the end of a run -/

/-- What a call makes smaller: before the deadline the seconds that are left,
and the calls up to the next sleep; afterwards the calls up to the end. -/
def budget (e : RestoreEnv) (n : Nat) : Nat :=
  if e.clock n < e.deadline then
    20 * (⌈e.deadline - e.clock n⌉₊ + 1) + (e.thread n).pc.callsToSleep
  else (e.thread n).pc.callsToReturn

theorem Forward.le_succ (h : e.Forward) (n : Nat) : e.clock n ≤ e.clock (n + 1) := by
  have hsleeps := RestoreThread.sleeps_nonneg (e.backoff_bounds n).1
  have hclock := h.sleeps n
  linarith

/-- Every call uses up some of the budget. -/
theorem Forward.budget_lt (h : e.Forward) {n : Nat} (hn : (e.thread n).pc ≠ .returned) :
    e.budget (n + 1) < e.budget n := by
  have hmono := h.le_succ n
  unfold budget
  by_cases hbefore : e.clock n < e.deadline
  · rw [if_pos hbefore]
    have hreturn := (e.thread (n + 1)).pc.callsToReturn_le
    have hsleep := (e.thread (n + 1)).pc.callsToSleep_le
    by_cases hafter : e.clock (n + 1) < e.deadline
    · rw [if_pos hafter]
      by_cases hone : (e.thread n).pc.callsToSleep = 1
      · -- A sleep: at least a second of what was left has gone.
        have hclock := h.sleeps n
        have hsleeps := RestoreThread.one_le_sleeps (e.backoff_bounds n).1 hone
        have hleft : ⌈e.deadline - e.clock (n + 1)⌉₊ + 1 ≤ ⌈e.deadline - e.clock n⌉₊ := by
          rw [← Nat.ceil_add_one (by linarith)]
          exact Nat.ceil_le_ceil (by linarith)
        omega
      · have hcalls := RestoreThread.call_callsToSleep (e.thread n) (e.reply n) hn hone
        have hthread : e.thread (n + 1) = (e.thread n).call true (e.reply n) := by
          rw [thread, decide_eq_true hbefore]
        rw [← hthread] at hcalls
        have hleft : ⌈e.deadline - e.clock (n + 1)⌉₊ ≤ ⌈e.deadline - e.clock n⌉₊ :=
          Nat.ceil_le_ceil (by linarith)
        omega
    · rw [if_neg hafter]
      omega
  · have hafter : ¬ e.clock (n + 1) < e.deadline := by linarith
    rw [if_neg hbefore, if_neg hafter, thread, decide_eq_false hbefore]
    exact RestoreThread.call_callsToReturn (e.thread n) (e.reply n) hn

/-- Every run returns. -/
theorem Forward.returns (h : e.Forward) : ∃ n, (e.thread n).pc = .returned := by
  obtain ⟨n, hn⟩ := WellFounded.not_rel_apply_succ (r := (· < ·)) e.budget
  by_contra hnone
  exact hn (h.budget_lt fun hret => hnone ⟨n, hret⟩)

/-- A clock that runs in the sleeps runs forward. -/
theorem OnlySleeps.forward (h : e.OnlySleeps) : e.Forward where
  started := h.started.ge
  sleeps n := (h.sleeps n).ge

/-- **The clock** is behind the deadline by no more than the overshoot. -/
theorem OnlySleeps.clock_lt (h : e.OnlySleeps) (n : Nat) :
    e.clock n < e.deadline + (e.thread n).pc.overshoot := by
  induction n with
  | zero =>
      rw [h.started, deadline, thread, RestoreThread.start]
      simp only [RestorePc.overshoot]
      linarith
  | succ n ih =>
      rw [h.sleeps n, thread]
      by_cases hbefore : e.clock n < e.deadline
      · by_cases htest : (e.thread n).pc = .loopTest ∨ (e.thread n).pc = .attemptTest
        · have hsleeps : (e.thread n).sleeps = 0 := by
            rcases htest with htest | htest <;> rw [RestoreThread.sleeps, htest]
          have hover := ((e.thread n).call (decide (e.clock n < e.deadline))
            (e.reply n)).pc.overshoot_nonneg
          linarith
        · have hcall := RestoreThread.call_overshoot (e.thread n)
            (decide (e.clock n < e.deadline)) (e.reply n) (e.backoff_bounds n).2
            fun _ => not_or.mp htest
          linarith
      · have hcall := RestoreThread.call_overshoot (e.thread n)
          (decide (e.clock n < e.deadline)) (e.reply n) (e.backoff_bounds n).2
          fun hdec => absurd (of_decide_eq_true hdec) hbefore
        linarith

/-- **The supervisor is bounded**: whatever is answered, it returns, at most eight
of its requests are accepted, and the back-offs grow from 2 to at most 16
seconds; when only its sleeps take time, it is never 137 seconds behind its
start. -/
theorem restore_bounded (h : e.Forward) :
    (∃ n, (e.thread n).pc = .returned) ∧
      ∀ n, e.accepted n ≤ 8 ∧ (e.backoffs n).Pairwise (· ≤ ·) ∧
        (∀ d ∈ e.backoffs n, 2 ≤ d ∧ d ≤ 16) ∧
        (e.OnlySleeps → e.clock n < e.started + 137) := by
  refine ⟨h.returns, fun n => ⟨e.accepted_le n, (e.backoffs_sorted n).1, ?_, ?_⟩⟩
  · intro d hd
    obtain ⟨hlo, hhi⟩ := (e.backoffs_sorted n).2 d hd
    exact ⟨hlo, hhi.trans (e.backoff_bounds n).2⟩
  · intro honly
    have hclock := honly.clock_lt n
    have hover := (e.thread n).pc.overshoot_le
    rw [deadline] at hclock
    linarith

/-! ## a clock that only sleeping moves -/

/-- The thread and the clock after `n` calls. -/
def paced (started : ℚ) (reply : Nat → RestoreReply) : Nat → RestoreThread × ℚ
  | 0 => (.start, started)
  | n + 1 =>
      let (t, now) := paced started reply n
      (t.call (now < started + 120) (reply n), now + t.sleeps)

/-- The supervisor under the clock of `paced`. -/
def fakeClock (started : ℚ) (reply : Nat → RestoreReply) : RestoreEnv where
  started := started
  clock n := (paced started reply n).2
  reply := reply

theorem fakeClock_thread (started : ℚ) (reply : Nat → RestoreReply) (n : Nat) :
    (fakeClock started reply).thread n = (paced started reply n).1 := by
  induction n with
  | zero => rfl
  | succ n ih => rw [thread, ih]; rfl

/-- The clock of the example runs in the sleeps only. -/
theorem fakeClock_onlySleeps (started : ℚ) (reply : Nat → RestoreReply) :
    (fakeClock started reply).OnlySleeps where
  started := rfl
  sleeps n := by
    rw [fakeClock_thread]
    rfl

/-- Every request is accepted, and every attempt has failed a second later. -/
def failingReply (n : Nat) : RestoreReply where
  flag := n % 18 = 7
  saved := some ⟨.lit "SSID", .lit "pw123456"⟩
  state := .failed

/-- All eight attempts are made, and the supervisor gives up. -/
theorem failing_attempts_bounded :
    (fakeClock 0 failingReply).accepted 146 = 8 ∧
      (fakeClock 0 failingReply).clock 146 < 0 + 137 := by
  refine ⟨?_, ((restore_bounded (fakeClock_onlySleeps 0 failingReply).forward).2 146).2.2.2
    (fakeClock_onlySleeps 0 failingReply)⟩
  rw [accepted_eq, fakeClock_thread]
  decide +kernel

end RestoreEnv

end SushidaOs
