import SushidaOs.Wifi.Service

/-!
# SushidaOs.Wifi.Message

The message of `connect_status` outside the terminal states.

Every section that leaves `failed` or `succeeded` clears the message with
the state, except `reset_failure`.  So the restore supervisor turns a
published failure into an `idle` state that still carries the old error, and
`/status.json` shows it until the next attempt is queued.  No other atom
attaches a message to `idle` or `connecting`.
-/

namespace SushidaOs

open Service

/-- Before `coordinator._reset_failure()`. -/
def RestorePc.resetting : RestorePc → Bool
  | resetFailure _ => true
  | _ => false

/-- The step is no `reset_failure` of a failure that has a message. -/
def MessageGate (s : Service) (a : Label) : Prop :=
  ¬ (a = .restore .go ∧ s.restore.pc.resetting = true ∧ s.coord.connectState = .failed ∧
    s.coord.stateMessage ≠ "")

instance (s : Service) (a : Label) : Decidable (MessageGate s a) :=
  inferInstanceAs (Decidable (¬ _))

/-- Outside the terminal states there is no message. -/
def Silent (c : Coordinator Submission) : Prop :=
  c.connectState.isTerminal = false → c.stateMessage = ""

namespace Silent

theorem of_terminal {c : Coordinator Submission} (h : c.connectState.isTerminal = true) :
    Silent c := by
  intro hn
  rw [h] at hn
  contradiction

/-- The worker and the environment. -/
theorem step_core {s s' : Core} {a : Action} {evs : List Event} (hi : Silent s.coord)
    (ha : a ≠ .resetFailure) (h : Core.Effect s a s' evs) : Silent s'.coord := by
  cases h with
  | nothing | report | cancel | start | enqueueDefer | promoteKeep | take | takeNone | pass
  | mirrorRead | mirrorWrite | wake | clear | answer => exact hi
  | queue | enqueueStart | consume | resetSucceeded | handOver => exact fun _ => rfl
  | resetFailure => exact absurd rfl ha
  | promoteMove r hw hp hs =>
      intro _
      show (if s.coord.connectState = .idle then s.coord.stateMessage else "") = ""
      split
      · next hidle => exact hi (by rw [hidle]; rfl)
      · rfl
  | publish r success message => exact of_terminal (ConnectState.isTerminal_ofOutcome success)

/-- One atom of the service. -/
theorem step {s s' : Service} {a : Label} {evs : List Event} (hi : Silent s.coord)
    (hgate : MessageGate s a) (h : Effect s a s' evs) : Silent s'.coord := by
  cases h with
  | httpMove | httpReport | pageMirrorRead | pageMirrorWrite | cancel | enqueueDefer
  | enqueueMirrorRead | enqueueMirrorWrite | respond | raise | httpStart | restoreMove
  | restoreChecked | restoreReport | restoreMirrorRead | restoreMirrorWrite
  | restoreStart => exact hi
  | consume | enqueueStart | restoreQueue => exact fun _ => rfl
  | resetSucceeded hpc =>
      show Silent s.coord.resetSucceeded
      unfold Coordinator.resetSucceeded
      split
      · exact fun _ => rfl
      · exact hi
  | restoreReset c t hpc hpc' =>
      show Silent s.coord.resetFailure
      unfold Coordinator.resetFailure
      split
      · next hfailed =>
          -- the message stays, so it must have been empty before
          intro _
          by_contra hmsg
          exact hgate ⟨rfl, by rw [hpc]; rfl, hfailed, hmsg⟩
      · exact hi
  | worker core' evs hstep => exact hi.step_core (by simp) (Core.effect_of_step hstep)
  | connect a core' evs hstep => exact hi.step_core (by simp) (Core.effect_of_step hstep)

end Silent

/-- The messages shown so far and the present one. -/
structure MessageInv (tr : List Event) (s : Service) : Prop where
  quiet : Silent s.coord
  reported : ∀ st m, Event.reported st m ∈ tr → st.isTerminal = false → m = ""

/-- The invariant holds along every run whose steps meet the condition. -/
theorem MessageInv.of_run {tr : List Event} {s : Service}
    (h : serviceMachine.Run MessageGate tr s) : MessageInv tr s := by
  refine invariant_of_effect (I := MessageInv) ⟨fun _ => rfl, by simp⟩ ?_ h
  intro tr s a s' evs _ hi hgate heff
  refine ⟨hi.quiet.step hgate heff, fun st m hm hst => ?_⟩
  cases List.mem_append.mp hm with
  | inl hold => exact hi.reported st m hold hst
  | inr hnew =>
      obtain ⟨rfl, rfl⟩ := heff.cause hnew
      exact hi.quiet hst

/-- A step that does not meet the condition leaves an idle state with the
message of the failure. -/
theorem message_left_of_reset {s s' : Service} {a : Label} {evs : List Event}
    (ha : ¬ MessageGate s a) (h : s.step a = some (s', evs)) :
    s'.coord.connectState = .idle ∧ s'.coord.stateMessage ≠ "" := by
  obtain ⟨rfl, hreset, hfailed, hmsg⟩ := not_not.mp ha
  cases hpc : s.restore.pc with
  | resetFailure c =>
      simp only [step, stepRestore, hpc] at h
      obtain ⟨core', t, hstep, -, rfl⟩ := restoreAtom_some h
      simp only [Core.step, Core.resetFailure, Coordinator.resetFailure, hfailed, if_true,
        Option.some.injEq, Prod.mk.injEq] at hstep
      obtain ⟨rfl, -⟩ := hstep
      exact ⟨rfl, hmsg⟩
  | _ => simp [hpc, RestorePc.resetting] at hreset

/-- **No stale message outside a terminal state** in runs whose steps meet
`MessageGate`, neither in the state nor in any answer of `connect_status` so
far; and the first step that does not meet it leaves an idle state with a
message. -/
theorem no_message_outside_terminal {tr : List Event} {s : Service}
    (h : serviceMachine.Run MessageGate tr s) :
    (s.coord.connectState = .idle ∨ s.coord.connectState = .connecting →
      s.coord.connectStatus.2 = "") ∧
    (∀ st m, Event.reported st m ∈ tr → st = .idle ∨ st = .connecting → m = "") ∧
    (∀ a s' evs, ¬ MessageGate s a → serviceMachine.step s a = some (s', evs) →
      s'.coord.connectState = .idle ∧ s'.coord.connectStatus.2 ≠ "") := by
  have hi := MessageInv.of_run h
  have hterminal : ∀ st : ConnectState, st = .idle ∨ st = .connecting →
      st.isTerminal = false := by
    intro st hst
    cases hst with
    | inl h => rw [h]; rfl
    | inr h => rw [h]; rfl
  constructor
  · exact fun hs => hi.quiet (hterminal _ hs)
  constructor
  · exact fun st m hm hs => hi.reported st m hm (hterminal st hs)
  · exact fun a s' evs ha hstep => message_left_of_reset ha hstep

/-- A failed POST, shown by `/status.json` and consumed by the page: no
message is left. -/
theorem no_message_after_consume :
    ∃ (tr : List Event) (s : Service), serviceMachine.Run MessageGate tr s ∧
      Event.reported .failed internalErrorMessage ∈ tr ∧ Event.consumed internalErrorMessage ∈ tr ∧
      s.coord.connectStatus.2 = "" := by
  obtain ⟨tr, s, hrun, hrep, hcons, hidle⟩ := serviceMachine.exists_run MessageGate
    [.http (.request (.connect ⟨.lit "Net", []⟩)), .http .go, .http .go, .http .go, .http .go,
      .http .go, .http .go, .worker, .worker, .worker, .connect .raised, .worker,
      .http (.request .statusJson), .http .go, .http (.request .page), .http .go, .http .go]
    (fun (tr : List Event) (s : Service) => Event.reported .failed internalErrorMessage ∈ tr ∧
      Event.consumed internalErrorMessage ∈ tr ∧ s.coord.connectState = .idle) (by decide)
  exact ⟨tr, s, hrun, hrep, hcons, (no_message_outside_terminal hrun).1 (.inl hidle)⟩

/-- The saved credential fails, the supervisor backs off and clears the
failure: `/status.json` shows an idle state with the old error. -/
theorem stale_message_after_reset :
    ∃ (tr : List Event) (s : Service), serviceMachine.Reaches tr s ∧ s.coord.connectState = .idle ∧
      s.coord.connectStatus.2 = internalErrorMessage ∧
      Event.reported .idle internalErrorMessage ∈ tr :=
  serviceMachine.exists_run (fun _ _ => True)
    [.restore (.bool true), .restore .go, .restore (.bool false), .restore .go,
      .restore (.bool false), .restore (.saved (some ⟨.lit "Home", []⟩)), .restore .go,
      .restore .go, .restore .go, .restore .go, .restore .go,
      .worker, .worker, .worker, .connect .raised, .worker,
      .restore (.bool true), .restore .go, .restore .go, .restore (.bool false), .restore .go,
      .restore .go, .restore .go,
      .restore (.bool true), .restore .go, .restore (.bool false), .restore .go,
      .restore (.bool false), .restore (.saved (some ⟨.lit "Home", []⟩)), .restore .go,
      .http (.request .statusJson), .http .go]
    (fun (tr : List Event) (s : Service) => s.coord.connectState = .idle ∧
      s.coord.connectStatus.2 = internalErrorMessage ∧
      Event.reported .idle internalErrorMessage ∈ tr) (by decide)

end SushidaOs
