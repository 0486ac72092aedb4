import SushidaOs.Wifi.Slots
import SushidaOs.Wifi.Service

/-!
# SushidaOs.Wifi.Yield

The restore supervisor and interactive submissions.

`enqueue_interactive` sets the cancellation event, and the supervisor looks
at it at the top of an iteration and while it waits for an attempt.  Between
the check at the top and its `queue_connection` it makes two `nmcli` calls,
reads the credential file and clears a failure, and does not look again: a
POST in that window does not stop it (`RestorePc.committed`).  A POST outside
the window does, for good.

`OriginInv` says where interactive submissions can be before the event is
set (nowhere), and `YieldInv` where saved ones can be after it: only inside
`self._connect`, and not any more once an interactive attempt has ended.
-/

namespace SushidaOs

open Service

/-! ## interactive submissions come after the event -/

/-- The submission is in a slot or in the worker's hand. -/
def Held (s : Service) (r : Submission) : Prop :=
  s.coord.pendingRequest = some r ∨ s.coord.pendingInteractive = some r ∨
    s.core.worker.inHand = some r

/-- The event is never cleared. -/
theorem Service.Effect.restoreCancelled_mono {s s' : Service} {a : Label} {evs : List Event}
    (h : Effect s a s' evs) (hc : s.coord.restoreCancelled = true) :
    s'.coord.restoreCancelled = true := by
  cases h with
  | cancel => rfl
  | resetSucceeded => exact s.coord.resetSucceeded_restoreCancelled.trans hc
  | restoreReset => exact s.coord.resetFailure_restoreCancelled.trans hc
  | worker core' evs hstep =>
      cases Core.effect_of_step hstep with
      | _ => exact hc
  | connect a core' evs hstep =>
      cases Core.effect_of_step hstep with
      | _ => exact hc
  | _ => exact hc

theorem Service.Effect.restoreCancelled_of_mem {s s' : Service} {a : Label} {evs : List Event}
    (h : Effect s a s' evs) (hm : Event.cancelled ∈ evs) : s'.coord.restoreCancelled = true := by
  cases h with
  | cancel => rfl
  | restoreReset => split at hm <;> simp at hm
  | worker core' evs hstep =>
      cases Core.effect_of_step hstep with
      | _ => simp at hm
  | connect a core' evs hstep =>
      cases Core.effect_of_step hstep with
      | _ => simp at hm
  | _ => simp at hm

/-- Interactive submissions exist only after the event was set. -/
structure OriginInv (tr : List Event) (s : Service) : Prop where
  slot : ∀ r, s.coord.pendingInteractive = some r → r.origin = .interactive
  enqueuing : ∀ c, s.http = .enqueue c → s.coord.restoreCancelled = true
  held : ∀ r, Held s r → r.origin = .interactive → s.coord.restoreCancelled = true
  finished : ∀ r ok m, Event.finished r ok m ∈ tr → r.origin = .interactive →
    s.coord.restoreCancelled = true
  cancelled : Event.cancelled ∈ tr → s.coord.restoreCancelled = true

namespace OriginInv

/-- The fields about the state; those about the trace follow from the causes
of its events. -/
theorem of_effect {tr evs : List Event} {s s' : Service} {a : Label} (hi : OriginInv tr s)
    (h : Effect s a s' evs)
    (hslot : ∀ r, s'.coord.pendingInteractive = some r → r.origin = .interactive)
    (henq : ∀ c, s'.http = .enqueue c →
      s.http = .enqueue c ∨ s'.coord.restoreCancelled = true)
    (hheld : ∀ r, Held s' r → r.origin = .interactive →
      Held s r ∨ s.coord.restoreCancelled = true) :
    OriginInv (tr ++ evs) s' := by
  have hmono := h.restoreCancelled_mono
  constructor
  · exact hslot
  · intro c hc
    cases henq c hc with
    | inl h => exact hmono (hi.enqueuing c h)
    | inr h => exact h
  · intro r hr ho
    cases hheld r hr ho with
    | inl h => exact hmono (hi.held r h ho)
    | inr h => exact hmono h
  · intro r ok m hm ho
    cases List.mem_append.mp hm with
    | inl hold => exact hmono (hi.finished r ok m hold ho)
    | inr hnew =>
        have hw : s.core.worker = .finish r ok m := h.cause hnew
        have hr : Held s r := .inr (.inr (by rw [hw]; rfl))
        exact hmono (hi.held r hr ho)
  · intro hm
    cases List.mem_append.mp hm with
    | inl hold => exact hmono (hi.cancelled hold)
    | inr hnew => exact h.restoreCancelled_of_mem hnew

/-- The worker's atoms move requests towards the hand. -/
theorem held_of_work {s : Service} {core' : Core} {evs : List Event} {marker : Bool}
    (h : Core.Effect s.core .work core' evs) {r : Submission}
    (hr : Held { s with core := core', marker := marker } r) : Held s r := by
  cases h with
  | nothing => exact hr
  | promoteKeep hw | takeNone hw | mirrorRead hw | mirrorWrite _ hw | wake hw | clear hw =>
      exact hr.imp_right (Or.imp_right fun h => by simp [WorkerPc.inHand] at h)
  | promoteMove q hw hp hs | handOver _ q _ _ hw hp =>
      have hq : q = r := by simpa [Held, WorkerPc.inHand] using hr
      exact .inr (.inl (hq ▸ hp))
  | take q hw hp =>
      rcases hr with h | h | h
      · simp at h
      · exact .inr (.inl h)
      · simp only [WorkerPc.inHand, Option.some.injEq] at h
        exact .inl (h ▸ hp)
  | pass q hw =>
      rcases hr with h | h | h
      · exact .inl h
      · exact .inr (.inl h)
      · exact .inr (.inr (by rw [hw]; exact h))
  | publish q ok m hw hp =>
      exact hr.imp_right (Or.imp_right fun h => by simp [WorkerPc.inHand] at h)

/-- One atom keeps the invariant. -/
theorem step {tr evs : List Event} {s s' : Service} {a : Label} (hi : OriginInv tr s)
    (h : Effect s a s' evs) : OriginInv (tr ++ evs) s' := by
  have heff := h
  cases h with
  | httpMove i pc hn hm hn' hm' | httpReport i pc hn hm hn' hm' =>
      refine hi.of_effect heff hi.slot (fun c hc => ?_) (fun _ h _ => .inl h)
      simp only at hc
      simp [hc, HttpPc.inside] at hm'
  | consume | pageMirrorRead | pageMirrorWrite | enqueueMirrorRead | enqueueMirrorWrite
  | respond | raise | httpStart =>
      exact hi.of_effect heff hi.slot (fun _ h => by simp at h) (fun _ h _ => .inl h)
  | resetSucceeded hpc =>
      exact hi.of_effect heff (by simpa [Service.coord] using hi.slot) (fun _ h => by simp at h)
        (fun r h _ => .inl (by simpa [Held, Service.coord] using h))
  | cancel => exact hi.of_effect heff hi.slot (fun _ _ => .inr rfl) (fun _ h _ => .inl h)
  | enqueueStart c hpc hs =>
      exact hi.of_effect heff (fun _ h => by simp at h) (fun _ h => by simp at h)
        (fun _ _ _ => .inr (hi.enqueuing c hpc))
  | enqueueDefer c hpc hs =>
      refine hi.of_effect heff (fun r h => ?_) (fun _ h => by simp at h)
        (fun _ _ _ => .inr (hi.enqueuing c hpc))
      simp only [Option.some.injEq] at h
      rw [← h]
      rfl
  | restoreMove | restoreChecked | restoreReport | restoreMirrorRead | restoreMirrorWrite
  | restoreStart => exact hi.of_effect heff hi.slot (fun _ h => .inl h) (fun _ h _ => .inl h)
  | restoreReset =>
      exact hi.of_effect heff (by simpa [Service.coord] using hi.slot) (fun _ h => .inl h)
        (fun r h _ => .inl (by simpa [Held, Service.coord] using h))
  | restoreQueue c t hpc hs hpc' =>
      refine hi.of_effect heff hi.slot (fun _ h => .inl h) (fun r h ho => ?_)
      cases h with
      | inl h =>
          simp only [Option.some.injEq] at h
          rw [← h] at ho
          simp [Core.stamp] at ho
      | inr h => exact .inl (.inr h)
  | worker core' evs hstep =>
      have hwork := Core.effect_of_step hstep
      refine hi.of_effect heff (fun r h => ?_) (fun _ h => .inl h)
        (fun _ h _ => .inl (held_of_work hwork h))
      cases hwork with
      | promoteMove | handOver => simp at h
      | _ => exact hi.slot r h
  | connect a core' evs hstep =>
      cases Core.effect_of_step hstep with
      | nothing => exact hi.of_effect heff hi.slot (fun _ h => .inl h) (fun _ h _ => .inl h)
      | answer r a hw =>
          refine hi.of_effect heff hi.slot (fun _ h => .inl h) (fun q h _ => .inl ?_)
          simpa [Held, hw, WorkerPc.inHand] using h

/-- The invariant holds along every run. -/
theorem of_run {C : Service → Label → Prop} {tr : List Event} {s : Service}
    (h : serviceMachine.Run C tr s) : OriginInv tr s := by
  refine invariant_of_effect (I := OriginInv) ?_ (fun _ _ _ _ _ _ hi _ he => hi.step he) h
  constructor
  · intro r h; simp [Service.fresh, Core.fresh, Coordinator.fresh] at h
  · intro c h; simp [Service.fresh] at h
  · intro r h
    simp [Held, Service.fresh, Core.fresh, Coordinator.fresh, WorkerPc.inHand] at h
  · intro r ok m h; simp at h
  · intro h; simp at h

end OriginInv

/-! ## after the event -/

/-- Before `self._restore_cancelled.set()`. -/
def HttpPc.cancelling : HttpPc → Bool
  | cancel _ => true
  | _ => false

/-- The submission is still to be passed to `self._connect`, ahead of the
interactive slot. -/
def Waits (s : Service) (r : Submission) : Prop :=
  s.coord.pendingRequest = some r ∨ s.core.worker.untried = some r

/-- A saved credential is queued or taken and not yet tried. -/
def savedWaits (s : Service) : Bool :=
  s.coord.pendingRequest.any (!·.isInteractive) || s.core.worker.untried.any (!·.isInteractive)

theorem savedWaits_eq_false {s : Service} (h : savedWaits s = false) {r : Submission}
    (hr : Waits s r) : r.origin = .interactive := by
  simp only [savedWaits, Bool.or_eq_false_iff] at h
  cases hr with
  | inl hp => simpa [hp, Submission.isInteractive] using h.1
  | inr hp => simpa [hp, Submission.isInteractive] using h.2

/-- The event is not set while the supervisor is past its cancellation check
and not past its `queue_connection`, nor while a saved credential is waiting
to be tried. -/
def YieldGate (s : Service) (a : Label) : Prop :=
  a = .http .go → s.http.cancelling = true →
    s.restore.pc.committed = false ∧ savedWaits s = false

instance (s : Service) (a : Label) : Decidable (YieldGate s a) :=
  inferInstanceAs (Decidable (_ → _))

/-- An interactive attempt has ended. -/
def InteractiveEnded (tr : List Event) : Prop :=
  ∃ r ok m, Event.finished r ok m ∈ tr ∧ r.origin = .interactive

/-- Where saved credentials can be once the event is set. -/
structure YieldInv (tr : List Event) (s : Service) : Prop where
  committed : s.coord.restoreCancelled = true → s.restore.pc.committed = false
  waits : s.coord.restoreCancelled = true → ∀ r, Waits s r → r.origin = .interactive
  ended : InteractiveEnded tr → ∀ r, s.core.worker.inHand = some r → r.origin = .interactive

namespace YieldInv

/-- An atom that leaves the event, the supervisor's position and the worker's
hand as they are. -/
theorem of_keep {tr evs : List Event} {s s' : Service} (hi : YieldInv tr s)
    (hflag : s'.coord.restoreCancelled = s.coord.restoreCancelled)
    (hcommitted : s'.restore.pc.committed = true → s.restore.pc.committed = true)
    (hwaits : ∀ r, Waits s' r → Waits s r ∨ r.origin = .interactive)
    (hhand : s'.core.worker.inHand = s.core.worker.inHand)
    (hevs : ∀ r ok m, Event.finished r ok m ∉ evs) : YieldInv (tr ++ evs) s' := by
  constructor
  · intro hc
    rw [hflag] at hc
    have hold := hi.committed hc
    by_contra hn
    rw [hcommitted (by simpa using hn)] at hold
    contradiction
  · intro hc r hr
    rw [hflag] at hc
    cases hwaits r hr with
    | inl h => exact hi.waits hc r h
    | inr h => exact h
  · rintro ⟨q, ok, m, hq, ho⟩ r hr
    rw [hhand] at hr
    have hold : Event.finished q ok m ∈ tr :=
      (List.mem_append.mp hq).resolve_right (hevs q ok m)
    exact hi.ended ⟨q, ok, m, hold, ho⟩ r hr

/-- The worker's atoms. -/
theorem step_work {tr evs : List Event} {s : Service} {core' : Core} {marker : Bool}
    (hi : YieldInv tr s) (horigin : OriginInv tr s) (h : Core.Effect s.core .work core' evs) :
    YieldInv (tr ++ evs) { s with core := core', marker := marker } := by
  have hslot := horigin.slot
  cases h with
  | nothing => exact hi.of_keep rfl id (fun _ h => .inl h) rfl (by simp)
  | promoteKeep hw | takeNone hw | mirrorRead hw | mirrorWrite _ hw | wake hw | clear hw =>
      exact hi.of_keep rfl id
        (fun _ h => .inl (h.imp_right fun h => by simp [WorkerPc.untried] at h))
        (by rw [hw]; rfl) (by simp)
  | promoteMove q hw hp hs =>
      refine hi.of_keep rfl id (fun r h => .inr ?_) (by rw [hw]; rfl) (by simp)
      have hq : q = r := by simpa [Waits, WorkerPc.untried] using h
      exact hslot r (hq ▸ hp)
  | pass q hw =>
      exact hi.of_keep rfl id
        (fun _ h => .inl (h.imp_right fun h => by simp [WorkerPc.untried] at h))
        (by rw [hw]; rfl) (by simp)
  | take q hw hp =>
      have hq : Waits s q := .inl hp
      constructor
      · exact hi.committed
      · intro hc r hr
        have hqr : q = r := by simpa [Waits, WorkerPc.untried] using hr
        exact hi.waits hc r (hqr ▸ hq)
      · rintro ⟨p, ok, m, hm, ho⟩ r hr
        -- an interactive attempt has ended, so the event is set
        have hold : Event.finished p ok m ∈ tr := by simpa using hm
        have hc := horigin.finished p ok m hold ho
        simp only [WorkerPc.inHand, Option.some.injEq] at hr
        exact hi.waits hc r (hr ▸ hq)
  | handOver p q ok m hw hp =>
      constructor
      · exact hi.committed
      · intro _ r hr
        have hqr : q = r := by simpa [Waits, WorkerPc.untried] using hr
        exact hslot r (hqr ▸ hp)
      · intro _ r hr
        simp [WorkerPc.inHand] at hr
  | publish p ok m hw hp =>
      constructor
      · exact hi.committed
      · intro hc r hr
        cases hr with
        | inl h => exact hi.waits hc r (.inl h)
        | inr h => simp [WorkerPc.untried] at h
      · intro _ r hr
        simp [WorkerPc.inHand] at hr

/-- One atom keeps the invariant. -/
theorem step {tr evs : List Event} {s s' : Service} {a : Label} (hi : YieldInv tr s)
    (horigin : OriginInv tr s) (hgate : YieldGate s a) (h : Effect s a s' evs) :
    YieldInv (tr ++ evs) s' := by
  cases h with
  | httpMove | httpReport | consume | pageMirrorRead | pageMirrorWrite | enqueueMirrorRead
  | enqueueMirrorWrite | respond | raise | httpStart | enqueueDefer =>
      exact hi.of_keep rfl id (fun _ h => .inl h) rfl (by simp)
  | resetSucceeded =>
      exact hi.of_keep s.coord.resetSucceeded_restoreCancelled id
        (fun r h => .inl (by simpa [Waits, Service.coord] using h)) rfl (by simp)
  | cancel c hpc =>
      obtain ⟨hcommitted, hwaits⟩ := hgate rfl (by rw [hpc]; rfl)
      constructor
      · exact fun _ => hcommitted
      · exact fun _ r hr => savedWaits_eq_false hwaits hr
      · rintro ⟨q, ok, m, hm, ho⟩ r hr
        exact hi.ended ⟨q, ok, m, by simpa using hm, ho⟩ r hr
  | enqueueStart c hpc hs =>
      refine hi.of_keep rfl id (fun r h => ?_) rfl (by simp)
      cases h with
      | inl h =>
          simp only [Option.some.injEq] at h
          exact .inr (by rw [← h]; rfl)
      | inr h => exact .inl (.inr h)
  | restoreMove i t hc =>
      exact hi.of_keep rfl hc (fun _ h => .inl h) rfl (by simp)
  | restoreReport t hc =>
      exact hi.of_keep rfl (fun h => by rw [hc] at h; contradiction) (fun _ h => .inl h) rfl
        (by simp)
  | restoreChecked t hpc hflag hpc' =>
      constructor
      · intro hc
        rw [show s.coord.restoreCancelled = true from hc] at hflag
        contradiction
      · exact hi.waits
      · rintro ⟨q, ok, m, hm, ho⟩ r hr
        exact hi.ended ⟨q, ok, m, by simpa using hm, ho⟩ r hr
  | restoreReset c t hpc hpc' =>
      refine hi.of_keep s.coord.resetFailure_restoreCancelled (fun _ => by rw [hpc]; rfl)
        (fun r h => .inl (by simpa [Waits, Service.coord] using h)) rfl (fun r ok m hm => ?_)
      split at hm <;> simp at hm
  | restoreQueue c t hpc hs hpc' =>
      -- the supervisor is committed, so the event is not set
      have hflag : s.coord.restoreCancelled ≠ true := by
        intro hc
        have hcommitted := hi.committed hc
        rw [hpc] at hcommitted
        contradiction
      constructor
      · exact fun hc => absurd hc hflag
      · exact fun hc => absurd hc hflag
      · rintro ⟨q, ok, m, hm, ho⟩ r hr
        exact hi.ended ⟨q, ok, m, by simpa using hm, ho⟩ r hr
  | restoreMirrorRead t hpc hpc' =>
      exact hi.of_keep rfl (fun h => by simp [hpc', RestorePc.committed] at h)
        (fun _ h => .inl h) rfl (by simp)
  | restoreMirrorWrite _ t hpc hpc' =>
      exact hi.of_keep rfl (fun h => by simp [hpc', RestorePc.committed] at h)
        (fun _ h => .inl h) rfl (by simp)
  | restoreStart t hpc hpc' =>
      exact hi.of_keep rfl (fun h => by simp [hpc', RestorePc.committed] at h)
        (fun _ h => .inl h) rfl (by simp)
  | worker core' evs hstep => exact hi.step_work horigin (Core.effect_of_step hstep)
  | connect a core' evs hstep =>
      cases Core.effect_of_step hstep with
      | nothing => exact hi.of_keep rfl id (fun _ h => .inl h) rfl (by simp)
      | answer r a hw =>
          exact hi.of_keep rfl id
            (fun _ h => .inl (h.imp_right fun h => by simp [WorkerPc.untried] at h))
            (by rw [hw]; rfl) (by simp)

/-- The invariant holds along every run whose steps meet the condition. -/
theorem of_run {tr : List Event} {s : Service} (h : serviceMachine.Run YieldGate tr s) :
    YieldInv tr s := by
  refine invariant_of_effect (I := YieldInv) ?_
    (fun _ _ _ _ _ hr hi ha he => hi.step (OriginInv.of_run hr) ha he) h
  constructor
  · intro h; simp [Service.fresh, Core.fresh, Coordinator.fresh] at h
  · intro h; simp [Service.fresh, Core.fresh, Coordinator.fresh] at h
  · rintro ⟨r, ok, m, h, -⟩; simp at h

end YieldInv

/-- The state before an event that comes after the cancellation. -/
theorem run_before_cancelled {tr : List Event} {s : Service}
    (h : serviceMachine.Run YieldGate tr s) {pre mid post : List Event} {e : Event}
    (htr : tr = (pre ++ Event.cancelled :: mid) ++ e :: post) :
    ∃ (s₀ : Service) (a : Label), YieldInv (pre ++ Event.cancelled :: mid) s₀ ∧
      s₀.coord.restoreCancelled = true ∧
      Cause s₀ a e := by
  obtain ⟨s₀, a, hrun, -, hcause⟩ := run_before h htr
  have hset : s₀.coord.restoreCancelled = true := (OriginInv.of_run hrun).cancelled (by simp)
  exact ⟨s₀, a, YieldInv.of_run hrun, hset, hcause⟩

/-- The state before any event after the cancellation. -/
theorem cause_after_cancelled {tr : List Event} {s : Service}
    (h : serviceMachine.Run YieldGate tr s) {pre post : List Event}
    (htr : tr = pre ++ Event.cancelled :: post) {e : Event} (he : e ∈ post) :
    ∃ (mid : List Event) (s₀ : Service) (a : Label),
      YieldInv (pre ++ Event.cancelled :: mid) s₀ ∧
      s₀.coord.restoreCancelled = true ∧ Cause s₀ a e := by
  obtain ⟨mid, rest, hpost⟩ := List.append_of_mem he
  have hsplit : tr = (pre ++ Event.cancelled :: mid) ++ e :: rest := by
    rw [htr, hpost, List.append_assoc, List.cons_append]
  exact ⟨mid, run_before_cancelled h hsplit⟩

/-- **Restore yields for good** in runs whose steps meet `YieldGate`: after the
event is set no saved credential is accepted, no failure is reset by the
supervisor, no saved credential is tried, and none replaces the outcome of
an interactive attempt. -/
theorem restore_yields {tr : List Event} {s : Service}
    (h : serviceMachine.Run YieldGate tr s) {pre post : List Event}
    (htr : tr = pre ++ Event.cancelled :: post) :
    (∀ r : Submission, Event.accepted r ∈ post → r.origin ≠ .restore) ∧ Event.failureReset ∉ post ∧
    (∀ r : Submission, Event.passed r ∈ post → r.origin ≠ .restore) ∧
    (∀ (before after : List Event) (q : Submission) (ok : Bool) (m : String),
      post = before ++ Event.finished q ok m :: after → q.origin = .interactive →
      ∀ (r : Submission) (ok' : Bool) (m' : String), Event.finished r ok' m' ∈ after →
      r.origin ≠ .restore) := by
  have hne : ∀ r : Submission, r.origin = .interactive → r.origin ≠ .restore := by
    intro r hr
    simp [hr]
  constructor
  · intro r hr
    obtain ⟨mid, s₀, a, hi, hset, hcause⟩ := cause_after_cancelled h htr hr
    cases hcause with
    | inl hpost =>
        obtain ⟨c, -, rfl⟩ := hpost
        exact hne _ rfl
    | inr hrestore =>
        obtain ⟨c, hpc, -⟩ := hrestore
        have hcommitted := hi.committed hset
        rw [hpc] at hcommitted
        contradiction
  constructor
  · intro hr
    obtain ⟨mid, s₀, a, hi, hset, ⟨c, hpc⟩, -⟩ := cause_after_cancelled h htr hr
    have hcommitted := hi.committed hset
    rw [hpc] at hcommitted
    contradiction
  constructor
  · intro r hr
    obtain ⟨mid, s₀, a, hi, hset, htook⟩ := cause_after_cancelled h htr hr
    have hwaits : Waits s₀ r := .inr (by rw [htook]; rfl)
    exact hne r (hi.waits hset r hwaits)
  · intro before after q ok m hpost ho r ok' m' hr
    obtain ⟨mid, rest, hafter⟩ := List.append_of_mem hr
    have hcut' : tr = (pre ++ Event.cancelled :: (before ++ Event.finished q ok m :: mid)) ++
        Event.finished r ok' m' :: rest := by
      rw [htr, hpost, hafter]
      simp
    obtain ⟨s₀, a, hi, -, hfinish⟩ := run_before_cancelled h hcut'
    have hended : InteractiveEnded
        (pre ++ Event.cancelled :: (before ++ Event.finished q ok m :: mid)) :=
      ⟨q, ok, m, by simp, ho⟩
    have hhand : s₀.core.worker.inHand = some r := by
      rw [hfinish]
      rfl
    exact hne r (hi.ended hended r hhand)

/-- A POST while the saved credential is being tried: it runs next, and the
supervisor stops. -/
theorem restore_yields_running_attempt :
    ∃ (pre post : List Event) (s : Service) (q : Submission),
      serviceMachine.Run YieldGate (pre ++ Event.cancelled :: post) s ∧
      s.restore.pc = .returned ∧ Event.passed q ∈ post ∧ q.origin = .interactive ∧
      ∀ r, Event.passed r ∈ post → r.origin ≠ .restore := by
  let home : Credential := ⟨.lit "Home", []⟩
  let net : Credential := ⟨.lit "Net", []⟩
  let r : Submission := ⟨home, 0, .restore⟩
  let q : Submission := ⟨net, 1, .interactive⟩
  obtain ⟨tr, s, hrun, htr, hpc⟩ := serviceMachine.exists_run YieldGate
    [.restore (.bool true), .restore .go, .restore (.bool false), .restore .go,
      .restore (.bool false), .restore (.saved (some home)), .restore .go, .restore .go,
      .restore .go, .restore .go, .restore .go, .worker, .worker, .worker,
      .http (.request (.connect net)), .http .go, .http .go, .http .go, .http .go,
      .restore (.bool true), .restore .go, .restore .go,
      .connect (.returned false "first"), .worker, .worker, .worker, .worker, .worker, .worker]
    (fun (tr : List Event) (s : Service) =>
      tr = [Event.accepted r, .taken r, .passed r] ++ Event.cancelled :: [Event.accepted q,
        .responded 1, .started 1, .finished r false "first", .taken q, .passed q] ∧
      s.restore.pc = .returned) (by decide)
  subst htr
  exact ⟨_, _, s, q, hrun, hpc, by decide, rfl, (restore_yields hrun rfl).2.2.1⟩

/-- A POST between the supervisor's cancellation check and its
`queue_connection`, whose attempt fails at once: the supervisor clears the
failure, queues the saved credential and publishes its outcome. -/
theorem restore_overtakes_post :
    ∃ (pre post : List Event) (s : Service) (r : Submission),
      serviceMachine.Reaches (pre ++ Event.cancelled :: post) s ∧
      r.origin = .restore ∧ Event.accepted r ∈ post ∧ Event.failureReset ∈ post ∧
      Event.passed r ∈ post ∧
      s.coord.connectStatus = (.succeeded, "saved") := by
  let home : Credential := ⟨.lit "Home", []⟩
  let net : Credential := ⟨.lit "Net", []⟩
  let q : Submission := ⟨net, 0, .interactive⟩
  let r : Submission := ⟨home, 1, .restore⟩
  obtain ⟨tr, s, hrun, htr, hs⟩ := serviceMachine.exists_run (fun _ _ => True)
    [.restore (.bool true), .restore .go, .restore (.bool false), .restore .go,
      .http (.request (.connect net)), .http .go, .http .go, .http .go, .http .go, .http .go,
      .http .go, .worker, .worker, .worker, .connect (.returned false "posted"), .worker,
      .worker, .worker,
      .restore (.bool false), .restore (.saved (some home)), .restore .go, .restore .go,
      .worker, .worker, .worker, .connect (.returned true "saved"), .worker]
    (fun (tr : List Event) (s : Service) =>
      tr = [] ++ Event.cancelled :: [Event.accepted q, .responded 0, .started 0, .taken q,
      .passed q, .finished q false "posted", .failureReset, .accepted r, .taken r, .passed r,
      .finished r true "saved"] ∧ s.coord.connectStatus = (.succeeded, "saved")) (by decide)
  subst htr
  exact ⟨_, _, s, r, hrun, rfl, by decide, by decide, by decide, hs⟩

end SushidaOs
