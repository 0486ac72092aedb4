import SushidaOs.Wifi.Slots

/-!
# SushidaOs.Wifi.Outcome

What the status calls may show.

An attempt is superseded when `enqueue_interactive` executes its locked
block after the worker took the request of the attempt and before the locked
block that ends it.  The outcome of a superseded attempt is never published:
the end of the attempt finds the interactive slot full and hands over.

The argument relates the trace to the state three times.  While an attempt
runs, its being superseded shows in the interactive slot
(`AttemptInv.running`); in a terminal state, the published outcome is the one
of the attempt that finished last (`AttemptInv.shown`); and in every state a
message that is not empty is that attempt's (`OutcomeInv.message`).
-/

namespace SushidaOs

open SushidaOs.Core

/-! ## attempts in the trace -/

/-- The requests taken by the worker, in order. -/
def takenOf (tr : List Event) : List Submission :=
  tr.filterMap fun e => match e with
    | .taken r => some r
    | _ => none

/-- The finished attempts with their outcomes, in order. -/
def finishedOf (tr : List Event) : List (Submission × Bool × String) :=
  tr.filterMap fun e => match e with
    | .finished r ok m => some (r, ok, m)
    | _ => none

@[simp] theorem takenOf_append (tr evs : List Event) :
    takenOf (tr ++ evs) = takenOf tr ++ takenOf evs := List.filterMap_append

@[simp] theorem finishedOf_append (tr evs : List Event) :
    finishedOf (tr ++ evs) = finishedOf tr ++ finishedOf evs := List.filterMap_append

/-- The attempts taken are those of the trace. -/
theorem mem_takenOf {tr : List Event} {r : Submission} : r ∈ takenOf tr ↔ Event.taken r ∈ tr := by
  simp only [takenOf, List.mem_filterMap]
  constructor
  · rintro ⟨e, he, hr⟩
    split at hr
    · simp only [Option.some.injEq] at hr
      subst hr
      exact he
    · contradiction
  · exact fun h => ⟨_, h, rfl⟩

/-- An interactive submission was accepted while the worker was running the
attempt of `r`. -/
def Superseded (tr : List Event) (r : Submission) : Prop :=
  ∃ (before between after : List Event) (q : Submission),
    tr = before ++ Event.taken r :: (between ++ Event.accepted q :: after) ∧
    q.origin = .interactive ∧ ∀ ok m, Event.finished r ok m ∉ between

/-- The attempt of `r` is open: taken and not finished since. -/
def Open (tr : List Event) (r : Submission) : Prop :=
  ∃ before since : List Event, tr = before ++ Event.taken r :: since ∧
    ∀ ok m, Event.finished r ok m ∉ since

/-- Only an attempt that was taken is superseded. -/
theorem Superseded.taken {tr : List Event} {r : Submission} (h : Superseded tr r) :
    r ∈ takenOf tr := by
  obtain ⟨before, between, after, q, rfl, -⟩ := h
  exact mem_takenOf.mpr (by simp)

/-- Events that accept nothing interactive supersede nothing. -/
theorem superseded_of_append {tr evs : List Event} {r : Submission}
    (hq : ∀ q, Event.accepted q ∈ evs → q.origin ≠ .interactive) (h : Superseded (tr ++ evs) r) :
    Superseded tr r := by
  obtain ⟨before, between, after, q, he, ho, hfin⟩ := h
  rw [← List.cons_append, ← List.append_assoc] at he
  rcases List.append_eq_append_iff.mp he with ⟨mid, -, hevs⟩ | ⟨mid, htr, hrest⟩
  · exact absurd ho (hq q (by rw [hevs]; simp))
  · cases mid with
    | nil => exact absurd ho (hq q (by rw [List.nil_append] at hrest; rw [← hrest]; simp))
    | cons e mid' =>
        simp only [List.cons_append, List.cons.injEq] at hrest
        obtain ⟨rfl, -⟩ := hrest
        exact ⟨before, between, mid', q, by rw [htr]; simp, ho, hfin⟩

/-- A submission supersedes only an open attempt. -/
theorem superseded_snoc {tr : List Event} {r q : Submission}
    (h : Superseded (tr ++ [Event.accepted q]) r) : Superseded tr r ∨ Open tr r := by
  obtain ⟨before, between, after, q', he, ho, hfin⟩ := h
  rw [← List.cons_append, ← List.append_assoc] at he
  rcases List.append_eq_append_iff.mp he with ⟨mid, htr, hevs⟩ | ⟨mid, htr, hrest⟩
  · cases mid with
    | nil =>
        rw [List.append_nil] at htr
        exact .inr ⟨before, between, htr.symm, hfin⟩
    | cons e mid' => simp at hevs
  · cases mid with
    | nil =>
        rw [List.append_nil] at htr
        exact .inr ⟨before, between, htr, hfin⟩
    | cons e mid' =>
        simp only [List.cons_append, List.cons.injEq] at hrest
        obtain ⟨rfl, -⟩ := hrest
        exact .inl ⟨before, between, mid', q', by rw [htr]; simp, ho, hfin⟩

/-- An attempt that is open after one more event was open before it or has
just been taken. -/
theorem open_snoc {tr : List Event} {r : Submission} {e : Event} (h : Open (tr ++ [e]) r) :
    (Open tr r ∧ ∀ ok m, e ≠ .finished r ok m) ∨ e = .taken r := by
  obtain ⟨before, since, he, hfin⟩ := h
  rcases List.eq_nil_or_concat since with rfl | ⟨since', e', rfl⟩
  · obtain ⟨-, hlast⟩ := List.append_inj' he rfl
    simp only [List.cons.injEq, and_true] at hlast
    exact .inr hlast
  · simp only [List.concat_eq_append] at he hfin
    rw [← List.cons_append, ← List.append_assoc] at he
    obtain ⟨htr, hlast⟩ := List.append_inj' he rfl
    simp only [List.cons.injEq, and_true] at hlast
    refine .inl ⟨⟨before, since', htr, fun ok m hm => hfin ok m (by simp [hm])⟩, ?_⟩
    intro ok m hm
    exact hfin ok m (by simp [← hlast, hm])

/-! ## the invariant -/

/-- The trace against the state, as far as attempts go. -/
structure AttemptInv (tr : List Event) (s : Core) : Prop where
  pipe : PipelineInv tr s
  /-- A taken request is passed next. -/
  taken : takenOf tr = passedOf tr ++ s.worker.untried.toList
  /-- Only the attempt in hand is open. -/
  opened : ∀ r, Open tr r → s.worker.inHand = some r
  /-- A superseded attempt still in hand will find the slot full. -/
  running : ∀ r, s.worker.inHand = some r → Superseded tr r →
    s.coord.pendingInteractive ≠ none
  /-- A terminal state is the outcome of the attempt that finished last. -/
  shown : s.coord.connectState.isTerminal = true →
    ∃ r ok, (finishedOf tr).getLast? = some (r, ok, s.coord.stateMessage) ∧
      s.coord.connectState = .ofOutcome ok ∧ ¬ Superseded tr r

/-- No attempt starts, ends or is superseded by these events. -/
def Quiet (evs : List Event) : Prop :=
  evs = [] ∨ ∃ e, evs = [e] ∧ (∀ r, e ≠ .taken r) ∧ (∀ r, e ≠ .passed r) ∧
    (∀ r ok m, e ≠ .finished r ok m) ∧ (∀ q, e = .accepted q → q.origin ≠ .interactive)

namespace Quiet

variable {tr evs : List Event} {r : Submission}

theorem nil : Quiet [] := .inl rfl

theorem superseded (hq : Quiet evs) (h : Superseded (tr ++ evs) r) : Superseded tr r := by
  refine superseded_of_append (fun q hmem => ?_) h
  rcases hq with rfl | ⟨e, rfl, -, -, -, hacc⟩
  · simp at hmem
  · exact hacc q (List.mem_singleton.mp hmem).symm

theorem isOpen (hq : Quiet evs) (h : Open (tr ++ evs) r) : Open tr r := by
  rcases hq with rfl | ⟨e, rfl, htaken, -, -, -⟩
  · rwa [List.append_nil] at h
  · exact ((open_snoc h).resolve_right (htaken r)).1

theorem finishedOf_eq (hq : Quiet evs) : finishedOf (tr ++ evs) = finishedOf tr := by
  rcases hq with rfl | ⟨e, rfl, -, -, hfin, -⟩
  · rw [List.append_nil]
  · cases e <;> simp_all [finishedOf]

theorem takenOf_eq (hq : Quiet evs) : takenOf (tr ++ evs) = takenOf tr := by
  rcases hq with rfl | ⟨e, rfl, htaken, -, -, -⟩
  · rw [List.append_nil]
  · cases e <;> simp_all [takenOf]

theorem passedOf_eq (hq : Quiet evs) : passedOf (tr ++ evs) = passedOf tr := by
  rcases hq with rfl | ⟨e, rfl, -, hpass, -, -⟩
  · rw [List.append_nil]
  · cases e <;> simp_all [passedOf]

end Quiet

namespace AttemptInv

variable {tr evs : List Event} {s s' : Core}

/-- A quiet atom that keeps the attempt in hand, its slot, and any terminal
state it leaves. -/
theorem step_quiet (hi : AttemptInv tr s) (hq : Quiet evs) (hpipe : PipelineInv (tr ++ evs) s')
    (hun : s'.worker.untried = s.worker.untried) (hhand : s'.worker.inHand = s.worker.inHand)
    (hslot : s'.worker.inHand ≠ none →
      s'.coord.pendingInteractive = s.coord.pendingInteractive)
    (hstate : s'.coord.connectState.isTerminal = true →
      s'.coord.connectState = s.coord.connectState ∧
        s'.coord.stateMessage = s.coord.stateMessage) :
    AttemptInv (tr ++ evs) s' where
  pipe := hpipe
  taken := by rw [hq.takenOf_eq, hq.passedOf_eq, hun, hi.taken]
  opened r h := by rw [hhand]; exact hi.opened r (hq.isOpen h)
  running r h hsup := by
    rw [hslot (by simp [h])]
    exact hi.running r (by rw [← hhand, h]) (hq.superseded hsup)
  shown h := by
    obtain ⟨hst, hmsg⟩ := hstate h
    rw [hst] at h
    obtain ⟨r, ok, hlast, hok, hsup⟩ := hi.shown h
    refine ⟨r, ok, ?_, by rw [hst, hok], fun h => hsup (hq.superseded h)⟩
    rw [hq.finishedOf_eq, hmsg, hlast]

/-- The worker moves on, within an attempt or between two. -/
theorem step_move (hi : AttemptInv tr s) (hpipe : PipelineInv (tr ++ []) s')
    (hun : s'.worker.untried = s.worker.untried) (hhand : s'.worker.inHand = s.worker.inHand)
    (hslot : s'.coord.pendingInteractive = s.coord.pendingInteractive)
    (hstate : s'.coord.connectState = s.coord.connectState)
    (hmsg : s'.coord.stateMessage = s.coord.stateMessage) : AttemptInv (tr ++ []) s' :=
  hi.step_quiet .nil hpipe hun hhand (fun _ => hslot) (fun _ => ⟨hstate, hmsg⟩)

/-- An interactive submission that finds the coordinator busy. -/
theorem step_defer (hi : AttemptInv tr s) {q : Submission}
    (hpipe : PipelineInv (tr ++ [Event.accepted q]) s') (hworker : s'.worker = s.worker)
    (hslot : s'.coord.pendingInteractive = some q)
    (hst : s'.coord.connectState = s.coord.connectState)
    (hmsg : s'.coord.stateMessage = s.coord.stateMessage) :
    AttemptInv (tr ++ [Event.accepted q]) s' where
  pipe := hpipe
  taken := by
    rw [takenOf_append, passedOf_append, hi.taken, hworker]
    simp [takenOf, passedOf]
  opened r h := by
    rw [hworker]
    exact hi.opened r ((open_snoc h).resolve_right (by simp)).1
  running r _ _ := by simp [hslot]
  shown h := by
    rw [hst] at h
    obtain ⟨r, ok, hlast, hok, hsup⟩ := hi.shown h
    refine ⟨r, ok, by simp [finishedOf, hmsg, ← hlast], by rw [hst, hok], fun hnew => ?_⟩
    rcases superseded_snoc hnew with hold | hopen
    · exact hsup hold
    · -- an open attempt is in hand, and then the state is `connecting`
      have hhand := hi.opened r hopen
      have hc := (hi.pipe.slots.held (by simp [hhand])).1
      simp [hc, ConnectState.isTerminal] at h

/-- The worker takes a request. -/
theorem step_take (hi : AttemptInv tr s) {r : Submission} (hw : s.worker = .takePending)
    (hp : s.coord.pendingRequest = some r) (hpipe : PipelineInv (tr ++ [Event.taken r]) s')
    (hw' : s'.worker = .took r) : AttemptInv (tr ++ [Event.taken r]) s' where
  pipe := hpipe
  taken := by
    rw [takenOf_append, passedOf_append, hi.taken, hw, hw']
    simp [takenOf, passedOf, WorkerPc.untried]
  opened q h := by
    rcases open_snoc h with ⟨hopen, -⟩ | he
    · have hhand := hi.opened q hopen
      simp [hw, WorkerPc.inHand] at hhand
    · cases he
      simp [hw', WorkerPc.inHand]
  running q h hsup := by
    simp only [hw', WorkerPc.inHand, Option.some.injEq] at h
    subst h
    -- a request that is still queued has not been taken before
    have hmem := (superseded_of_append (by simp) hsup).taken
    have ht := hi.taken
    simp only [hw, WorkerPc.untried, Option.toList_none, List.append_nil] at ht
    rw [ht] at hmem
    have hnd := hi.pipe.nodup
    rw [pipeline, List.nodup_append] at hnd
    exact absurd rfl (hnd.2.2 r hmem r (by simp [held, hp]))
  shown h := by
    have hc := (hpipe.slots.held (by simp [hw', WorkerPc.inHand])).1
    simp [hc, ConnectState.isTerminal] at h

/-- The worker calls `self._connect`. -/
theorem step_pass (hi : AttemptInv tr s) {r : Submission} (hw : s.worker = .took r)
    (hpipe : PipelineInv (tr ++ [Event.passed r]) s') (hw' : s'.worker = .connecting r)
    (hcoord : s'.coord = s.coord) : AttemptInv (tr ++ [Event.passed r]) s' where
  pipe := hpipe
  taken := by
    rw [takenOf_append, passedOf_append, hi.taken, hw, hw']
    simp [takenOf, passedOf, WorkerPc.untried]
  opened q h := by
    have hhand := hi.opened q ((open_snoc h).resolve_right (by simp)).1
    simpa [hw, hw', WorkerPc.inHand] using hhand
  running q h hsup := by
    rw [hcoord]
    refine hi.running q ?_ (superseded_of_append (by simp) hsup)
    simpa [hw, hw', WorkerPc.inHand] using h
  shown h := by
    have hc := (hpipe.slots.held (by simp [hw', WorkerPc.inHand])).1
    simp [hc, ConnectState.isTerminal] at h

/-- The attempt ends: its outcome is published, or the state stays
`connecting`. -/
theorem step_finish (hi : AttemptInv tr s) {r : Submission} {ok : Bool} {m : String}
    (hw : s.worker = .finish r ok m) (hpipe : PipelineInv (tr ++ [Event.finished r ok m]) s')
    (hw' : s'.worker = .mirrorRead)
    (hend : s'.coord.connectState = .connecting ∨ (s.coord.pendingInteractive = none ∧
      s'.coord.connectState = .ofOutcome ok ∧ s'.coord.stateMessage = m)) :
    AttemptInv (tr ++ [Event.finished r ok m]) s' where
  pipe := hpipe
  taken := by
    rw [takenOf_append, passedOf_append, hi.taken, hw, hw']
    simp [takenOf, passedOf, WorkerPc.untried]
  opened q h := by
    obtain ⟨hopen, hne⟩ := (open_snoc h).resolve_right (by simp)
    have hhand := hi.opened q hopen
    simp only [hw, WorkerPc.inHand, Option.some.injEq] at hhand
    subst hhand
    exact absurd rfl (hne ok m)
  running q h _ := by simp [hw', WorkerPc.inHand] at h
  shown h := by
    rcases hend with hc | ⟨hslot, hst, hmsg⟩
    · simp [hc, ConnectState.isTerminal] at h
    · refine ⟨r, ok, by simp [finishedOf, hmsg], hst, fun hsup => ?_⟩
      have hne := hi.running r (by simp [hw, WorkerPc.inHand])
        (superseded_of_append (by simp) hsup)
      exact hne hslot

theorem step (hi : AttemptInv tr s) {a : Action} (h : Effect s a s' evs) :
    AttemptInv (tr ++ evs) s' := by
  have hpipe := hi.pipe.step h
  cases h with
  | nothing | start => exact hi.step_move hpipe rfl rfl rfl rfl rfl
  | report =>
      have hq : Quiet [Event.reported s.coord.connectState s.coord.stateMessage] :=
        .inr ⟨_, rfl, by simp⟩
      exact hi.step_quiet hq hpipe rfl rfl (fun _ => rfl) (fun _ => ⟨rfl, rfl⟩)
  | cancel =>
      have hq : Quiet [Event.cancelled] := .inr ⟨_, rfl, by simp⟩
      exact hi.step_quiet hq hpipe rfl rfl (fun _ => rfl) (fun _ => ⟨rfl, rfl⟩)
  | queue c hs =>
      exact hi.step_quiet (.inr ⟨_, rfl, by simp [stamp]⟩) hpipe rfl rfl (fun _ => rfl)
        (fun h => by simp [ConnectState.isTerminal] at h)
  | enqueueStart c hs =>
      -- the coordinator was idle, so no attempt is in hand to be superseded
      have hn := hi.pipe.slots.inHand_eq_none (by simp [hs])
      refine ⟨hpipe, ?_, fun r hopen => ?_, fun r hr => ?_, fun h => ?_⟩
      · rw [takenOf_append, passedOf_append, hi.taken]
        simp [takenOf, passedOf]
      · exact hi.opened r ((open_snoc hopen).resolve_right (by simp)).1
      · simp [hn] at hr
      · simp [ConnectState.isTerminal] at h
  | enqueueDefer c hs => exact hi.step_defer hpipe rfl rfl rfl rfl
  | consume hs | resetFailure hs =>
      exact hi.step_quiet (.inr ⟨_, rfl, by simp⟩) hpipe rfl rfl (fun _ => rfl)
        (fun h => by simp [ConnectState.isTerminal] at h)
  | resetSucceeded hs =>
      exact hi.step_quiet .nil hpipe rfl rfl (fun _ => rfl)
        (fun h => by simp [ConnectState.isTerminal] at h)
  | promoteKeep hw _ | takeNone hw _ | wake hw _ =>
      have hun : s.worker.untried = none := by rw [hw]; rfl
      have hhand : s.worker.inHand = none := by rw [hw]; rfl
      exact hi.step_move hpipe hun.symm hhand.symm rfl rfl rfl
  | mirrorRead hw | mirrorWrite _ hw | clear hw =>
      have hun : s.worker.untried = none := by rw [hw]; rfl
      have hhand : s.worker.inHand = none := by rw [hw]; rfl
      exact hi.step_move hpipe hun.symm hhand.symm rfl rfl rfl
  | promoteMove r hw hp hs =>
      have hun : s.worker.untried = none := by rw [hw]; rfl
      have hhand : s.worker.inHand = none := by rw [hw]; rfl
      exact hi.step_quiet .nil hpipe hun.symm hhand.symm (fun h => absurd rfl h)
        (fun h => by simp [ConnectState.isTerminal] at h)
  | answer r a hw =>
      have hun : s.worker.untried = none := by rw [hw]; rfl
      have hhand : s.worker.inHand = some r := by rw [hw]; rfl
      exact hi.step_move hpipe hun.symm hhand.symm rfl rfl rfl
  | take r hw hp => exact hi.step_take hw hp hpipe rfl
  | pass r hw => exact hi.step_pass hw hpipe rfl rfl
  | handOver r q ok m hw hp => exact hi.step_finish hw hpipe rfl (.inl rfl)
  | publish r ok m hw hp => exact hi.step_finish hw hpipe rfl (.inr ⟨hp, rfl, rfl⟩)

theorem of_run {C : Core → Action → Prop} (h : coreMachine.Run C tr s) : AttemptInv tr s := by
  refine invariant_of_effect ?_ (fun _ _ _ _ _ hi _ he => hi.step he) h
  refine ⟨PipelineInv.of_run (C := C) .start, rfl, ?_, ?_, ?_⟩
  · rintro r ⟨before, since, he, -⟩
    simp at he
  · rintro r hr
    simp [Core.fresh, WorkerPc.inHand] at hr
  · simp [Core.fresh, Coordinator.fresh, ConnectState.isTerminal]

end AttemptInv

/-! ## the message in every state -/

namespace AttemptInv

variable {tr : List Event} {s : Core} {r : Submission}

/-- No request is taken twice. -/
theorem nodup_taken (hi : AttemptInv tr s) : (takenOf tr).Nodup := by
  have hpipe := hi.pipe.nodup
  rw [pipeline, held, ← List.append_assoc, ← hi.taken] at hpipe
  exact (List.nodup_append.mp hpipe).1

end AttemptInv

/-- What one atom does to attempts and to the message. -/
inductive Attempts (s s' : Core) : List Event → Prop
  /-- The message is kept or cleared; attempts go on as they are. -/
  | keep {evs : List Event} (htaken : takenOf evs = []) (hfin : finishedOf evs = [])
      (hhand : s'.worker.inHand = s.worker.inHand)
      (hmsg : s'.coord.stateMessage = s.coord.stateMessage ∨ s'.coord.stateMessage = "") :
      Attempts s s' evs
  | take (r : Submission) (hhand : s'.worker.inHand = some r)
      (hmsg : s'.coord.stateMessage = s.coord.stateMessage) : Attempts s s' [.taken r]
  /-- The outcome is published, or the message is cleared for the next attempt. -/
  | finish (r : Submission) (ok : Bool) (m : String) (hhand : s.worker.inHand = some r)
      (hhand' : s'.worker.inHand = none)
      (hmsg : s'.coord.stateMessage = "" ∨ s'.coord.connectState.isTerminal = true) :
      Attempts s s' [.finished r ok m]

/-- What one step does to the attempts. -/
theorem attempts_of_effect {s s' : Core} {a : Action} {evs : List Event}
    (h : Effect s a s' evs) : Attempts s s' evs := by
  cases h with
  | nothing | start | report | cancel | enqueueDefer | resetFailure =>
      exact .keep rfl rfl rfl (.inl rfl)
  | queue | enqueueStart | consume | resetSucceeded => exact .keep rfl rfl rfl (.inr rfl)
  | promoteKeep hw | takeNone hw | mirrorRead hw | mirrorWrite _ hw | wake hw | clear hw =>
      exact .keep rfl rfl (by rw [hw]; rfl) (.inl rfl)
  | pass r hw | answer r a hw => exact .keep rfl rfl (by rw [hw]; rfl) (.inl rfl)
  | promoteMove r hw hp hs =>
      refine .keep rfl rfl (by rw [hw]; rfl) ?_
      by_cases hidle : s.coord.connectState = .idle
      · exact .inl (if_pos hidle)
      · exact .inr (if_neg hidle)
  | take r hw => exact .take r rfl rfl
  | handOver r q ok m hw => exact .finish r ok m (by rw [hw]; rfl) rfl (.inl rfl)
  | publish r ok m hw =>
      exact .finish r ok m (by rw [hw]; rfl) rfl (.inr (by cases ok <;> rfl))

/-- The trace against the message, also where the state is not terminal. -/
structure OutcomeInv (tr : List Event) (s : Core) : Prop where
  attempts : AttemptInv tr s
  /-- A finished attempt was taken. -/
  finished : ∀ r ok m, (r, ok, m) ∈ finishedOf tr → r ∈ takenOf tr
  /-- The attempt in hand was taken and has not finished. -/
  hand : ∀ r, s.worker.inHand = some r →
    r ∈ takenOf tr ∧ ∀ ok m, (r, ok, m) ∉ finishedOf tr
  /-- The message is that of the attempt that finished last, if there is one. -/
  message : s.coord.stateMessage = "" ∨ ∃ r ok,
    (finishedOf tr).getLast? = some (r, ok, s.coord.stateMessage) ∧ ¬ Superseded tr r

namespace OutcomeInv

variable {tr evs : List Event} {s s' : Core}

/-- A finished attempt is not superseded any more. -/
theorem superseded_of_finished (hi : OutcomeInv tr s) {a : Action} (h : Effect s a s' evs)
    {r : Submission} {ok : Bool} {m : String} (hmem : (r, ok, m) ∈ finishedOf tr)
    (hsup : Superseded (tr ++ evs) r) : Superseded tr r := by
  by_cases hacc : ∀ q, Event.accepted q ∈ evs → q.origin ≠ .interactive
  · exact superseded_of_append hacc hsup
  · have hone : ∃ q, evs = [Event.accepted q] := by
      cases h with
      | enqueueStart | enqueueDefer => exact ⟨_, rfl⟩
      | _ => simp [stamp] at hacc
    obtain ⟨q, rfl⟩ := hone
    rcases superseded_snoc hsup with hold | hopen
    · exact hold
    · exact absurd hmem ((hi.hand r (hi.attempts.opened r hopen)).2 ok m)

theorem step (hi : OutcomeInv tr s) {a : Action} (h : Effect s a s' evs) :
    OutcomeInv (tr ++ evs) s' := by
  have hattempts := hi.attempts.step h
  -- a message that is kept is still that of the attempt that finished last
  have hkeep : finishedOf (tr ++ evs) = finishedOf tr →
      s'.coord.stateMessage = s.coord.stateMessage → s'.coord.stateMessage = "" ∨ ∃ r ok,
        (finishedOf (tr ++ evs)).getLast? = some (r, ok, s'.coord.stateMessage) ∧
          ¬ Superseded (tr ++ evs) r := by
    intro hfin hmsg
    rw [hfin, hmsg]
    rcases hi.message with hempty | ⟨r, ok, hlast, hsup⟩
    · exact .inl hempty
    · refine .inr ⟨r, ok, hlast, fun hnew => hsup ?_⟩
      exact hi.superseded_of_finished h (List.mem_of_getLast? hlast) hnew
  cases attempts_of_effect h with
  | keep htaken hfin hhand hmsg =>
      have hfin' : finishedOf (tr ++ evs) = finishedOf tr := by
        rw [finishedOf_append, hfin, List.append_nil]
      have htaken' : takenOf (tr ++ evs) = takenOf tr := by
        rw [takenOf_append, htaken, List.append_nil]
      refine ⟨hattempts, ?_, ?_, ?_⟩
      · rw [hfin', htaken']
        exact hi.finished
      · rw [hfin', htaken', hhand]
        exact hi.hand
      · exact hmsg.elim (hkeep hfin') .inl
  | take r hhand hmsg =>
      have hfin' : finishedOf (tr ++ [Event.taken r]) = finishedOf tr := by
        rw [finishedOf_append]
        exact List.append_nil _
      have htaken' : takenOf (tr ++ [Event.taken r]) = takenOf tr ++ [r] := takenOf_append _ _
      have hnodup := hattempts.nodup_taken
      rw [htaken'] at hnodup
      refine ⟨hattempts, ?_, ?_, hkeep hfin' hmsg⟩
      · intro q ok m hmem
        rw [hfin'] at hmem
        rw [htaken']
        exact List.mem_append_left _ (hi.finished q ok m hmem)
      · intro q hq
        rw [hhand, Option.some.injEq] at hq
        subst hq
        rw [hfin', htaken']
        refine ⟨List.mem_append_right _ List.mem_cons_self, fun ok m hmem => ?_⟩
        exact (List.nodup_append.mp hnodup).2.2 r (hi.finished r ok m hmem) r
          List.mem_cons_self rfl
  | finish r ok m hhand hhand' hmsg =>
      have hfin' : finishedOf (tr ++ [Event.finished r ok m]) = finishedOf tr ++ [(r, ok, m)] :=
        finishedOf_append _ _
      have htaken' : takenOf (tr ++ [Event.finished r ok m]) = takenOf tr := by
        rw [takenOf_append]
        exact List.append_nil _
      refine ⟨hattempts, ?_, ?_, ?_⟩
      · intro q ok' m' hmem
        rw [hfin', List.mem_append, List.mem_singleton] at hmem
        rw [htaken']
        rcases hmem with hmem | heq
        · exact hi.finished q ok' m' hmem
        · obtain ⟨rfl, -⟩ := Prod.mk.inj heq
          exact (hi.hand q hhand).1
      · intro q hq
        rw [hhand'] at hq
        contradiction
      · rcases hmsg with hempty | hterminal
        · exact .inl hempty
        · obtain ⟨q, ok', hlast, -, hsup⟩ := hattempts.shown hterminal
          exact .inr ⟨q, ok', hlast, hsup⟩

theorem of_run {C : Core → Action → Prop} (h : coreMachine.Run C tr s) : OutcomeInv tr s := by
  refine invariant_of_effect ?_ (fun _ _ _ _ _ hi _ he => hi.step he) h
  refine ⟨AttemptInv.of_run (C := C) .start, ?_, ?_, .inl rfl⟩
  · intro r ok m hmem
    contradiction
  · intro r hr
    contradiction

end OutcomeInv

/-! ## a superseded outcome is never shown -/

/-- The event is the return of a status call with this state and message;
`consume_failure` returns the message of the failed state it consumes. -/
inductive Shows : Event → ConnectState → String → Prop
  | status (st : ConnectState) (m : String) : Shows (.reported st m) st m
  | consume (m : String) : Shows (.consumed m) .failed m

/-- A status call shows the state it finds. -/
theorem shows_of_effect {s s' : Core} {a : Action} {before after : List Event} {e : Event}
    {st : ConnectState} {m : String} (h : Effect s a s' (before ++ e :: after))
    (hshow : Shows e st m) :
    before = [] ∧ st = s.coord.connectState ∧ m = s.coord.stateMessage := by
  generalize hevs : before ++ e :: after = evs at h
  have hone : ∀ e', evs = [e'] → before = [] ∧ e = e' := fun e' he' => by
    rw [he', List.append_eq_singleton_iff] at hevs
    rcases hevs with ⟨hb, hl⟩ | ⟨-, hl⟩
    · exact ⟨hb, (List.cons.inj hl).1⟩
    · simp at hl
  cases h with
  | report =>
      obtain ⟨hb, rfl⟩ := hone _ rfl
      cases hshow
      exact ⟨hb, rfl, rfl⟩
  | consume hs =>
      obtain ⟨hb, rfl⟩ := hone _ rfl
      cases hshow
      exact ⟨hb, hs.symm, rfl⟩
  | queue | cancel | enqueueStart | enqueueDefer | resetFailure | take | pass | handOver
  | publish =>
      obtain ⟨-, rfl⟩ := hone _ rfl
      cases hshow
  | _ => simp at hevs

/-- **A superseded outcome is never shown**: the message that `connect_status` or
`consume_failure` returns, in whatever state, is empty or that of the attempt that
finished last before the call, and this attempt was not superseded.  A terminal state
is its outcome. -/
theorem shown_outcome_not_superseded {tr : List Event} {s : Core} (h : coreMachine.Reaches tr s)
    {pre post : List Event} {e : Event} (htr : tr = pre ++ e :: post) {st : ConnectState}
    {m : String} (hshow : Shows e st m) :
    (m = "" ∨ ∃ r ok, (finishedOf pre).getLast? = some (r, ok, m) ∧ ¬ Superseded pre r) ∧
      (st.isTerminal = true → ∃ r ok, (finishedOf pre).getLast? = some (r, ok, m) ∧
        st = .ofOutcome ok ∧ ¬ Superseded pre r) := by
  obtain ⟨tr₀, s₀, a, s₁, before, after, hrun, -, hstep, hpre⟩ := h.split pre e post htr
  obtain ⟨rfl, rfl, rfl⟩ := shows_of_effect (effect_of_step hstep) hshow
  rw [List.append_nil] at hpre
  subst hpre
  have hi := OutcomeInv.of_run hrun
  exact ⟨hi.message, hi.attempts.shown⟩

/-- Two posts, the second while the first attempt runs: the status call
after both attempts reports the second. -/
theorem shown_outcome_of_second_post :
    ∃ (pre : List Event) (s : Core),
      coreMachine.Reaches (pre ++ [Event.reported .succeeded "second"]) s ∧
      (∃ r, Superseded pre r) ∧
      ∃ r ok, (finishedOf pre).getLast? = some (r, ok, "second") ∧
        ConnectState.succeeded = .ofOutcome ok ∧ ¬ Superseded pre r := by
  let c : Credential := ⟨.lit "Net", []⟩
  obtain ⟨tr, s, hrun, htr⟩ := coreMachine.exists_run (fun _ _ => True)
    [.enqueueInteractive c, .work, .work, .work, .enqueueInteractive c,
      .answer (.returned false "first"), .work, .work, .work, .work, .work, .work,
      .answer (.returned true "second"), .work, .connectStatus]
    (fun (tr : List Event) _ => tr = [Event.accepted ⟨c, 0, .interactive⟩,
      .taken ⟨c, 0, .interactive⟩,
      .passed ⟨c, 0, .interactive⟩, .accepted ⟨c, 1, .interactive⟩,
      .finished ⟨c, 0, .interactive⟩ false "first", .taken ⟨c, 1, .interactive⟩,
      .passed ⟨c, 1, .interactive⟩, .finished ⟨c, 1, .interactive⟩ true "second"] ++
      [Event.reported .succeeded "second"]) (by decide)
  subst htr
  refine ⟨_, s, hrun, ⟨⟨c, 0, .interactive⟩, [Event.accepted ⟨c, 0, .interactive⟩],
    [Event.passed ⟨c, 0, .interactive⟩], _, ⟨c, 1, .interactive⟩, rfl, rfl, by simp⟩, ?_⟩
  exact (shown_outcome_not_superseded hrun rfl (.status _ _)).2 rfl

end SushidaOs
