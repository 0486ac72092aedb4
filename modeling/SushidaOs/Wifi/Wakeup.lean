import SushidaOs.Wifi.Outcome
import SushidaOs.Wifi.Service

/-!
# SushidaOs.Wifi.Wakeup

The wake event between the two submitters and the worker.

`start_queued_connection` is the last statement of `do_POST`, after the
response, and nothing protects it: when writing the response raises, the
submitted credential stays in its slot and nobody wakes the worker.  Apart
from that no wake-up is lost, because the worker clears the event before it
looks at the slots again (`WakeInv`).

The event does not order the response before the attempt, though.  The worker
also looks at the slots when nobody woke it: when it starts, after an attempt,
and after a left-over event.  So it can take the credential of a `do_POST`
that is still writing its response.
-/

namespace SushidaOs

open Service

/-! ## no stranded request -/

/-- A wake-up is set, or some thread is going to set one. -/
def Owed (s : Service) : Prop :=
  s.coord.requestEvent = true ∨ s.http.answering ≠ none ∨ s.restore.pc.owesStart = true

/-- The worker never goes to sleep on a request without a wake-up. -/
structure WakeInv (s : Service) : Prop where
  /-- The loop head left an interactive request only behind a queued one. -/
  taking : s.core.worker = .takePending → s.coord.pendingInteractive ≠ none →
    s.coord.pendingRequest ≠ none ∨ Owed s
  waiting : s.core.worker = .wait →
    s.coord.pendingRequest ≠ none ∨ s.coord.pendingInteractive ≠ none → Owed s

namespace WakeInv

/-- A thread owes a wake-up, so there is nothing to show. -/
theorem of_owed {s : Service} (h : Owed s) : WakeInv s where
  taking _ _ := .inr h
  waiting _ _ := h

/-- The worker is elsewhere. -/
theorem of_worker {s : Service} (ht : s.core.worker ≠ .takePending)
    (hw : s.core.worker ≠ .wait) : WakeInv s where
  taking h := absurd h ht
  waiting h := absurd h hw

/-- An atom that keeps the worker, the slots and what is owed. -/
theorem of_keep {s s' : Service} (hi : WakeInv s) (hw : s'.core.worker = s.core.worker)
    (hr : s'.coord.pendingRequest = s.coord.pendingRequest)
    (hp : s'.coord.pendingInteractive = s.coord.pendingInteractive)
    (ho : Owed s → Owed s') : WakeInv s' where
  taking h hn := by
    rw [hr]
    exact (hi.taking (by rw [← hw, h]) (by rw [← hp]; exact hn)).imp_right ho
  waiting h hn := by
    rw [hr, hp] at hn
    exact ho (hi.waiting (by rw [← hw, h]) hn)

/-- An atom of the HTTP thread while it owes no wake-up. -/
theorem of_http {s s' : Service} (hi : WakeInv s) (hn : s.http.answering = none)
    (hw : s'.core.worker = s.core.worker)
    (hr : s'.coord.pendingRequest = s.coord.pendingRequest)
    (hp : s'.coord.pendingInteractive = s.coord.pendingInteractive)
    (he : s'.coord.requestEvent = s.coord.requestEvent) (hrestore : s'.restore = s.restore) :
    WakeInv s' := by
  refine hi.of_keep hw hr hp fun howed => ?_
  unfold Owed
  rw [he, hrestore]
  cases howed with
  | inl h => exact .inl h
  | inr h => exact .inr (.inr (h.resolve_left fun hne => hne hn))

/-- An atom of the restore thread while it owes no wake-up. -/
theorem of_restore {s s' : Service} (hi : WakeInv s) (hn : s.restore.pc.owesStart = false)
    (hw : s'.core.worker = s.core.worker)
    (hr : s'.coord.pendingRequest = s.coord.pendingRequest)
    (hp : s'.coord.pendingInteractive = s.coord.pendingInteractive)
    (he : s'.coord.requestEvent = s.coord.requestEvent) (hhttp : s'.http = s.http) :
    WakeInv s' := by
  refine hi.of_keep hw hr hp fun howed => ?_
  unfold Owed
  rw [he, hhttp]
  cases howed with
  | inl h => exact .inl h
  | inr h => exact .inr (.inl (h.resolve_right (by rw [hn]; simp)))

/-- The worker's atoms. -/
theorem step_work {s : Service} {core' : Core} {evs : List Event} {marker : Bool}
    (hi : WakeInv s) (hslots : SlotInv s.core) (h : Core.Effect s.core .work core' evs) :
    WakeInv { s with core := core', marker := marker } := by
  cases h with
  | nothing => exact ⟨hi.taking, hi.waiting⟩
  | promoteKeep hw hk =>
      have hqueued : s.coord.pendingInteractive ≠ none → s.coord.pendingRequest ≠ none := by
        intro hp
        have hc := hk.resolve_left hp
        exact (hslots.free (by simp [hw, WorkerPc.inHand])).mp hc
      exact ⟨fun _ hp => .inl (hqueued hp), fun h => by simp at h⟩
  | promoteMove r hw hp hs => exact ⟨fun _ hn => absurd rfl hn, fun h => by simp at h⟩
  | takeNone hw hr =>
      refine ⟨fun h => by simp at h, fun _ hn => ?_⟩
      have hp : s.coord.pendingInteractive ≠ none := hn.resolve_left fun h => h hr
      exact (hi.taking hw hp).resolve_left (by simp [hr])
  | take | pass | handOver | publish | mirrorRead | mirrorWrite | wake | clear =>
      exact of_worker (by simp) (by simp)

/-- One atom keeps the invariant, unless the response of a `do_POST` raises. -/
theorem step {s s' : Service} {a : Label} {evs : List Event} (hi : WakeInv s)
    (hslots : SlotInv s.core) (ha : a ≠ .http .raises) (h : Effect s a s' evs) :
    WakeInv s' := by
  cases h with
  | httpMove i pc hn | httpReport i pc hn => exact hi.of_http hn rfl rfl rfl rfl rfl
  | consume hpc | pageMirrorRead hpc | pageMirrorWrite _ hpc | cancel _ hpc =>
      have hn : s.http.answering = none := by rw [hpc]; rfl
      exact hi.of_http hn rfl rfl rfl rfl rfl
  | resetSucceeded hpc =>
      have hn : s.http.answering = none := by rw [hpc]; rfl
      exact hi.of_http hn rfl s.coord.resetSucceeded_pendingRequest
        s.coord.resetSucceeded_pendingInteractive s.coord.resetSucceeded_requestEvent rfl
  | enqueueStart | enqueueDefer | enqueueMirrorRead | enqueueMirrorWrite | respond =>
      -- the `do_POST` itself owes the wake-up
      exact of_owed (.inr (.inl (by simp [HttpPc.answering])))
  | raise => exact absurd rfl ha
  | httpStart | restoreStart => exact of_owed (.inl rfl)
  | restoreMove i t hc hn => exact hi.of_restore hn rfl rfl rfl rfl rfl
  | restoreReport t hc hn => exact hi.of_restore hn rfl rfl rfl rfl rfl
  | restoreChecked t hpc =>
      have hn : s.restore.pc.owesStart = false := by rw [hpc]; rfl
      exact hi.of_restore hn rfl rfl rfl rfl rfl
  | restoreReset c t hpc =>
      have hn : s.restore.pc.owesStart = false := by rw [hpc]; rfl
      exact hi.of_restore hn rfl s.coord.resetFailure_pendingRequest
        s.coord.resetFailure_pendingInteractive s.coord.resetFailure_requestEvent rfl
  | restoreQueue c t hpc hs hpc' | restoreMirrorRead t hpc hpc'
  | restoreMirrorWrite b t hpc hpc' =>
      have howes : t.pc.owesStart = true := by rw [hpc']; rfl
      exact of_owed (.inr (.inr howes))
  | worker core' evs hstep => exact hi.step_work hslots (Core.effect_of_step hstep)
  | connect a core' evs hstep =>
      cases Core.effect_of_step hstep with
      | nothing => exact hi
      | answer r a hw => exact of_worker (by simp) (by simp)

/-- The invariant holds along every run in which no response raises. -/
theorem of_run {tr : List Event} {s : Service}
    (h : serviceMachine.Run (fun _ a => a ≠ .http .raises) tr s) : WakeInv s := by
  refine invariant_of_effect (I := fun _ s => WakeInv s) ?_
    (fun _ _ _ _ _ hr hi ha he => ?_) h
  · exact of_worker (by simp [Service.fresh, Core.fresh]) (by simp [Service.fresh, Core.fresh])
  · exact hi.step (SlotInv.of_run (refines_core.run hr)) ha he

end WakeInv

/-- **No stranded request** in runs in which no response raises: when the
worker is blocked and no thread is between its submission and its
`start_queued_connection`, both slots are empty. -/
theorem blocked_worker_no_request {tr : List Event} {s : Service}
    (h : serviceMachine.Run (fun _ a => a ≠ .http .raises) tr s) (hb : Blocked s)
    (hhttp : s.http.answering = none) (hrestore : s.restore.pc.owesStart = false) :
    s.coord.pendingRequest = none ∧ s.coord.pendingInteractive = none := by
  have howed : ¬ Owed s := by
    rintro (he | ha | ho)
    · rw [hb.2] at he; contradiction
    · exact ha hhttp
    · rw [hrestore] at ho; contradiction
  have hempty := mt ((WakeInv.of_run h).waiting hb.1) howed
  rw [not_or, not_not, not_not] at hempty
  exact hempty

/-- A `do_POST` that ends with its `start_queued_connection`, and the attempt
it started: the worker is blocked and both slots are empty. -/
theorem blocked_worker_no_request_after_post :
    ∃ (tr : List Event) (s : Service), serviceMachine.Run (fun _ a => a ≠ .http .raises) tr s ∧
      Event.started 0 ∈ tr ∧ Blocked s ∧
      s.coord.pendingRequest = none ∧ s.coord.pendingInteractive = none := by
  obtain ⟨tr, s, hrun, htr, hb, hhttp, hrestore⟩ := serviceMachine.exists_run
    (fun _ a => a ≠ .http .raises)
    [.worker, .worker, .http (.request (.connect ⟨.lit "Net", []⟩)), .http .go, .http .go,
      .http .go, .http .go, .http .go, .http .go, .worker, .worker, .worker, .worker, .worker,
      .connect (.returned true ""), .worker, .worker, .worker, .worker, .worker]
    (fun (tr : List Event) (s : Service) => Event.started 0 ∈ tr ∧ Blocked s ∧
      s.http.answering = none ∧
      s.restore.pc.owesStart = false) (by decide)
  exact ⟨tr, s, hrun, htr, hb, blocked_worker_no_request hrun hb hhttp hrestore⟩

/-- The client of an accepted `do_POST` goes away: writing the response
raises, and the worker stays blocked on a queued request. -/
theorem request_stranded_by_raise :
    ∃ (tr : List Event) (s : Service), serviceMachine.Reaches tr s ∧ Blocked s ∧ s.http = .serving ∧
      s.restore.pc.owesStart = false ∧ s.coord.connectState = .connecting ∧
      s.coord.pendingRequest ≠ none :=
  serviceMachine.exists_run (fun _ _ => True)
    [.worker, .worker, .http (.request (.connect ⟨.lit "Net", []⟩)), .http .go, .http .go,
      .http .go, .http .go, .http .raises]
    (fun _ (s : Service) => Blocked s ∧ s.http = .serving ∧ s.restore.pc.owesStart = false ∧
      s.coord.connectState = .connecting ∧ s.coord.pendingRequest ≠ none) (by decide)

/-! ## response before activation -/

/-- The `do_POST` of submission `tag` has flushed its response and executed
`start_queued_connection`. -/
def Answered (tr : List Event) (tag : Nat) : Prop :=
  Event.responded tag ∈ tr ∧ Event.started tag ∈ tr

theorem Answered.append {tr : List Event} {tag : Nat} (h : Answered tr tag)
    (evs : List Event) : Answered (tr ++ evs) tag :=
  ⟨List.mem_append_left evs h.1, List.mem_append_left evs h.2⟩

/-- The request is in one of the two slots. -/
def Waiting (s : Service) (r : Submission) : Prop :=
  s.coord.pendingRequest = some r ∨ s.coord.pendingInteractive = some r

/-- The step is no response that raises, and no `take_pending` of a request
whose `do_POST` has yet to come to its `start_queued_connection`. -/
def ResponseGate (s : Service) (a : Label) : Prop :=
  a ≠ .http .raises ∧
    ¬ (a = .worker ∧ s.core.worker = .takePending ∧ s.http.answering ≠ none ∧
      s.coord.pendingRequest.map (·.tag) = s.http.answering)

instance (s : Service) (a : Label) : Decidable (ResponseGate s a) :=
  inferInstanceAs (Decidable (_ ∧ _))

/-- What is known of the response of each interactive request not yet passed
to `self._connect`. -/
structure ResponseInv (tr : List Event) (s : Service) : Prop where
  waiting : ∀ r, Waiting s r → r.origin = .interactive →
    Answered tr r.tag ∨ s.http.answering = some r.tag
  untried : ∀ r, s.core.worker.untried = some r → r.origin = .interactive → Answered tr r.tag
  starting : ∀ tag, s.http = .start tag → Event.responded tag ∈ tr

namespace ResponseInv

/-- An atom that puts nothing into the slots, gives the worker nothing and
leaves the answering `do_POST` where it is. -/
theorem of_keep {tr evs : List Event} {s s' : Service} (hi : ResponseInv tr s)
    (hslots : ∀ r, Waiting s' r → r.origin = .interactive → Waiting s r)
    (hworker : ∀ r, s'.core.worker.untried = some r → s.core.worker.untried = some r)
    (hhttp : ∀ tag, s.http.answering = some tag → s'.http.answering = some tag)
    (hstart : ∀ tag, s'.http = .start tag → Event.responded tag ∈ tr ++ evs) :
    ResponseInv (tr ++ evs) s' where
  waiting r hr ho := (hi.waiting r (hslots r hr ho) ho).imp (·.append evs) (hhttp r.tag)
  untried r hr ho := (hi.untried r (hworker r hr) ho).append evs
  starting := hstart

/-- The worker's atoms. -/
theorem step_work {tr evs : List Event} {s : Service} {core' : Core} {marker : Bool}
    (hi : ResponseInv tr s) (hgate : ResponseGate s .worker)
    (h : Core.Effect s.core .work core' evs) :
    ResponseInv (tr ++ evs) { s with core := core', marker := marker } := by
  have hstart : ∀ tag, s.http = .start tag → Event.responded tag ∈ tr ++ evs :=
    fun tag h => List.mem_append_left evs (hi.starting tag h)
  cases h with
  | nothing => exact hi.of_keep (fun _ h _ => h) (fun _ h => h) (fun _ h => h) hstart
  | promoteKeep | takeNone | pass | publish | mirrorRead | mirrorWrite | wake | clear =>
      exact hi.of_keep (fun _ h _ => h) (fun _ h => by simp [WorkerPc.untried] at h)
        (fun _ h => h) hstart
  | promoteMove r hw hp hs =>
      refine hi.of_keep (fun q hq _ => ?_) (fun _ h => by simp [WorkerPc.untried] at h)
        (fun _ h => h) hstart
      have hqr : r = q := by simpa [Waiting] using hq
      exact .inr (hqr ▸ hp)
  | handOver r q ok m hw hp =>
      refine hi.of_keep (fun q' hq _ => ?_) (fun _ h => by simp [WorkerPc.untried] at h)
        (fun _ h => h) hstart
      have hqr : q = q' := by simpa [Waiting] using hq
      exact .inr (hqr ▸ hp)
  | take r hw hp =>
      have hanswered : r.origin = .interactive → Answered tr r.tag := by
        intro ho
        refine (hi.waiting r (.inl hp) ho).resolve_right fun ha => hgate.2 ⟨rfl, hw, ?_, ?_⟩
        · rw [ha]; simp
        · rw [ha, hp]; rfl
      constructor
      · intro q hq ho
        have hwait : Waiting s q := by
          cases hq with
          | inl h => simp at h
          | inr h => exact .inr h
        exact (hi.waiting q hwait ho).imp_left (·.append _)
      · intro q hq ho
        simp only [WorkerPc.untried, Option.some.injEq] at hq
        subst hq
        exact (hanswered ho).append _
      · exact hstart

/-- One atom keeps the invariant. -/
theorem step {tr evs : List Event} {s s' : Service} {a : Label} (hi : ResponseInv tr s)
    (hgate : ResponseGate s a) (h : Effect s a s' evs) : ResponseInv (tr ++ evs) s' := by
  have hstart : ∀ tag, s.http = .start tag → Event.responded tag ∈ tr ++ evs :=
    fun tag h => List.mem_append_left evs (hi.starting tag h)
  cases h with
  | httpMove i pc hn hm hn' hm' | httpReport i pc hn hm hn' hm' =>
      refine hi.of_keep (fun _ h _ => h) (fun _ h => h) (fun _ h => by simp [hn] at h) ?_
      rintro tag rfl
      simp [HttpPc.answering] at hn'
  | consume hpc | pageMirrorRead hpc | pageMirrorWrite _ hpc | cancel _ hpc =>
      exact hi.of_keep (fun _ h _ => h) (fun _ h => h)
        (fun _ h => by simp [hpc, HttpPc.answering] at h) (fun _ h => by simp at h)
  | resetSucceeded hpc =>
      refine hi.of_keep (fun r h _ => ?_) (fun _ h => h)
        (fun _ h => by simp [hpc, HttpPc.answering] at h) (fun _ h => by simp at h)
      simpa [Waiting, Service.coord] using h
  | enqueueStart c hpc hs =>
      constructor
      · intro r hr ho
        have hrs : s.core.stamp .interactive c = r := by simpa [Waiting] using hr
        exact .inr (by rw [← hrs]; rfl)
      · intro r hr ho
        exact (hi.untried r hr ho).append _
      · intro tag h; simp at h
  | enqueueDefer c hpc hs =>
      constructor
      · intro r hr ho
        cases hr with
        | inl h =>
            have hold := hi.waiting r (.inl h) ho
            simp only [hpc, HttpPc.answering, reduceCtorEq, or_false] at hold
            exact .inl (hold.append _)
        | inr h =>
            have hrs : s.core.stamp .interactive c = r := by simpa using h
            exact .inr (by rw [← hrs]; rfl)
      · intro r hr ho
        exact (hi.untried r hr ho).append _
      · intro tag h; simp at h
  | enqueueMirrorRead tag hpc | enqueueMirrorWrite tag _ hpc =>
      exact hi.of_keep (fun _ h _ => h) (fun _ h => h)
        (fun _ h => by rw [← h, hpc]; rfl) (fun _ h => by simp at h)
  | respond tag hpc =>
      refine hi.of_keep (fun _ h _ => h) (fun _ h => h) (fun _ h => by rw [← h, hpc]; rfl) ?_
      intro tag' h
      simp only [HttpPc.start.injEq] at h
      subst h
      simp
  | raise => exact absurd rfl hgate.1
  | httpStart tag hpc =>
      have hanswered : Answered (tr ++ [Event.started tag]) tag :=
        ⟨List.mem_append_left _ (hi.starting tag hpc), by simp⟩
      constructor
      · intro r hr ho
        cases hi.waiting r hr ho with
        | inl h => exact .inl (h.append _)
        | inr h =>
            simp only [hpc, HttpPc.answering, Option.some.injEq] at h
            subst h
            exact .inl hanswered
      · intro r hr ho
        exact (hi.untried r hr ho).append _
      · intro tag h; simp at h
  | restoreMove | restoreChecked | restoreReport | restoreMirrorRead | restoreMirrorWrite
  | restoreStart => exact hi.of_keep (fun _ h _ => h) (fun _ h => h) (fun _ h => h) hstart
  | restoreReset c t hpc hpc' =>
      refine hi.of_keep (fun r h _ => ?_) (fun _ h => h) (fun _ h => h) hstart
      simpa [Waiting, Service.coord] using h
  | restoreQueue c t hpc hs hpc' =>
      refine hi.of_keep (fun r h ho => ?_) (fun _ h => h) (fun _ h => h) hstart
      cases h with
      | inl h =>
          -- the saved credential is not interactive
          have hrs : s.core.stamp .restore c = r := by simpa using h
          rw [← hrs] at ho
          simp [Core.stamp] at ho
      | inr h => exact .inr h
  | worker core' evs hstep => exact hi.step_work hgate (Core.effect_of_step hstep)
  | connect a core' evs hstep =>
      cases Core.effect_of_step hstep with
      | nothing => exact hi.of_keep (fun _ h _ => h) (fun _ h => h) (fun _ h => h) hstart
      | answer r a hw =>
          exact hi.of_keep (fun _ h _ => h) (fun _ h => by simp [WorkerPc.untried] at h)
            (fun _ h => h) hstart

/-- The invariant holds along every run whose steps meet the condition. -/
theorem of_run {tr : List Event} {s : Service} (h : serviceMachine.Run ResponseGate tr s) :
    ResponseInv tr s := by
  refine invariant_of_effect (I := ResponseInv) ?_ (fun _ _ _ _ _ _ hi ha he => hi.step ha he) h
  constructor
  · intro r hr
    simp [Waiting, Service.fresh, Core.fresh, Coordinator.fresh] at hr
  · intro r hr
    simp [Service.fresh, Core.fresh, WorkerPc.untried] at hr
  · intro tag h
    simp [Service.fresh] at h

end ResponseInv

/-- **Response before activation** in runs whose steps meet `ResponseGate`:
when the worker calls `self._connect` with an interactive credential, the
`do_POST` that submitted it has flushed its response and executed
`start_queued_connection`. -/
theorem passed_after_response {tr : List Event} {s : Service}
    (h : serviceMachine.Run ResponseGate tr s) {pre post : List Event} {r : Submission}
    (htr : tr = pre ++ Event.passed r :: post) (ho : r.origin = .interactive) :
    Event.responded r.tag ∈ pre ∧ Event.started r.tag ∈ pre := by
  obtain ⟨s₀, a, hrun, -, htook⟩ := run_before h htr
  have huntried : s₀.core.worker.untried = some r := by
    rw [htook]
    rfl
  exact (ResponseInv.of_run hrun).untried r huntried ho

/-- One `do_POST` and then the worker: the attempt starts after the response. -/
theorem passed_after_response_one_post :
    ∃ (pre : List Event) (r : Submission) (s : Service),
      serviceMachine.Run ResponseGate (pre ++ [Event.passed r]) s ∧
      r.origin = .interactive ∧ Event.responded r.tag ∈ pre ∧ Event.started r.tag ∈ pre := by
  let c : Credential := ⟨.lit "Net", []⟩
  let r : Submission := ⟨c, 0, .interactive⟩
  obtain ⟨tr, s, hrun, htr⟩ := serviceMachine.exists_run ResponseGate
    [.worker, .worker, .http (.request (.connect c)), .http .go, .http .go, .http .go,
      .http .go, .http .go, .http .go, .worker, .worker, .worker, .worker, .worker]
    (fun (tr : List Event) _ =>
      tr = [Event.cancelled, .accepted r, .responded 0, .started 0, .taken r] ++
        [Event.passed r]) (by decide)
  subst htr
  exact ⟨_, r, s, hrun, rfl, passed_after_response hrun rfl rfl⟩

/-- A second `do_POST` while the first attempt runs: the end of the attempt
hands over, and the worker calls `self._connect` with the second credential
while its `do_POST` has yet to write the response. -/
theorem passed_before_response :
    ∃ (pre : List Event) (r : Submission) (s : Service),
      serviceMachine.Reaches (pre ++ [Event.passed r]) s ∧ r.origin = .interactive ∧
      Event.responded r.tag ∉ pre ∧ Event.started r.tag ∉ pre := by
  let c : Credential := ⟨.lit "Net", []⟩
  let r : Submission := ⟨c, 0, .interactive⟩
  let q : Submission := ⟨c, 1, .interactive⟩
  obtain ⟨tr, s, hrun, htr⟩ := serviceMachine.exists_run (fun _ _ => True)
    [.http (.request (.connect c)), .http .go, .http .go, .http .go, .http .go, .http .go,
      .http .go, .worker, .worker, .worker,
      .http (.request (.connect c)), .http .go, .http .go,
      .connect (.returned false "first"), .worker, .worker, .worker, .worker, .worker, .worker]
    (fun (tr : List Event) _ => tr = [Event.cancelled, .accepted r, .responded 0, .started 0,
      .taken r, .passed r, .cancelled, .accepted q, .finished r false "first", .taken q] ++
      [Event.passed q]) (by decide)
  subst htr
  exact ⟨_, q, s, hrun, rfl, by decide, by decide⟩

end SushidaOs
