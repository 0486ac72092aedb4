import SushidaOs.Wifi.Service

/-!
# SushidaOs.Wifi.Marker

The connection-in-progress marker.

`_mirror_progress` writes the marker after it has released the lock, and the
loop head of `run_worker` enters `connecting` without calling it.  So the
marker can be wrong for two reasons: a write with a reading that another
thread has made out of date meanwhile, and a promotion that nobody mirrors.
Both are harmless while another thread is still inside `_mirror_progress`;
otherwise they leave a wrong marker until the next write (`MarkerGate`).
-/

namespace SushidaOs

open Service

/-! ## threads inside `_mirror_progress` -/

namespace HttpPc

/-- The reading a thread is about to write. -/
def reading : HttpPc → Option Bool
  | pageMirrorWrite active | enqueueMirrorWrite _ active => some active
  | _ => none

end HttpPc

namespace RestorePc

def reading : RestorePc → Option Bool
  | queueMirrorWrite active => some active
  | _ => none

/-- Inside `_mirror_progress`; the other methods it calls are one atom. -/
def mirroring : RestorePc → Bool
  | queueMirrorRead | queueMirrorWrite _ => true
  | _ => false

theorem mirroring_of_owesStart {pc : RestorePc} (h : pc.owesStart = false) :
    pc.mirroring = false := by
  cases pc <;> first | rfl | simp [owesStart] at h

end RestorePc

namespace WorkerPc

def reading : WorkerPc → Option Bool
  | mirrorWrite active => some active
  | _ => none

def mirroring : WorkerPc → Bool
  | mirrorRead | mirrorWrite _ => true
  | _ => false

/-- Inside `self._connect`. -/
def isConnecting : WorkerPc → Bool
  | connecting _ => true
  | _ => false

end WorkerPc

/-- No thread is inside a coordinator method: the HTTP and restore threads are
outside, and the worker is inside `self._connect` or in `wait`. -/
def Outside (s : Service) : Prop :=
  s.http.inside = false ∧ s.restore.pc.mirroring = false ∧
    (s.core.worker = .wait ∨ s.core.worker.isConnecting = true)

instance (s : Service) : Decidable (Outside s) := inferInstanceAs (Decidable (_ ∧ _))

/-! ## the two ways to a wrong marker -/

/-- The reading, if there is one, is current. -/
def Current (s : Service) (reading : Option Bool) : Prop :=
  ∀ active ∈ reading, active = s.coord.active

instance (s : Service) (o : Option Bool) : Decidable (Current s o) :=
  match o with
  | none => .isTrue (by simp [Current])
  | some b => decidable_of_iff (b = s.coord.active) (by simp [Current])

/-- The worker's next atom promotes a deferred request. -/
def Promotes (s : Service) : Prop :=
  s.core.worker = .loopHead ∧ s.coord.pendingInteractive ≠ none ∧
    s.coord.connectState ≠ .connecting

instance (s : Service) : Decidable (Promotes s) := inferInstanceAs (Decidable (_ ∧ _))

/-- The thread that moves neither writes an out-of-date reading nor promotes a
deferred request, unless another thread is inside `_mirror_progress`. -/
def MarkerGate (s : Service) : Label → Prop
  | .http _ => Current s s.http.reading ∨ s.restore.pc.mirroring = true ∨
      s.core.worker.mirroring = true
  | .restore _ => Current s s.restore.pc.reading ∨ s.http.mirroring = true ∨
      s.core.worker.mirroring = true
  | .worker => Current s s.core.worker.reading ∧ ¬ Promotes s ∨ s.http.mirroring = true ∨
      s.restore.pc.mirroring = true
  | .connect _ => True

instance (s : Service) (a : Label) : Decidable (MarkerGate s a) :=
  match a with
  | .http _ | .restore _ | .worker => inferInstanceAs (Decidable (_ ∨ _))
  | .connect _ => inferInstanceAs (Decidable True)

/-! ## the marker follows the state -/

/-- The marker is right, or some thread is about to write it. -/
def MarkerInv (s : Service) : Prop :=
  s.marker = s.coord.active ∨ s.http.mirroring = true ∨ s.restore.pc.mirroring = true ∨
    s.core.worker.mirroring = true

namespace MarkerInv

/-- An atom that keeps the marker and whether an attempt is active, by
threads that are outside `_mirror_progress`. -/
theorem of_keep {s s' : Service} (hi : MarkerInv s) (hm : s'.marker = s.marker)
    (hactive : s'.coord.active = s.coord.active)
    (hhttp : s.http.mirroring = true → s'.http.mirroring = true)
    (hrestore : s.restore.pc.mirroring = true → s'.restore.pc.mirroring = true)
    (hworker : s.core.worker.mirroring = true → s'.core.worker.mirroring = true) :
    MarkerInv s' := by
  unfold MarkerInv
  rw [hm, hactive]
  exact hi.imp_right (Or.imp hhttp (Or.imp hrestore hworker))

/-- The worker's atoms. -/
theorem step_work {s : Service} {core' : Core} {evs : List Event} (hi : MarkerInv s)
    (hgate : MarkerGate s .worker) (h : Core.Effect s.core .work core' evs) :
    MarkerInv { s with core := core', marker := s.workerMarker } := by
  have hmarker : s.core.worker.reading = none → s.workerMarker = s.marker := by
    intro hn
    unfold workerMarker
    split
    · next hw => simp [hw, WorkerPc.reading] at hn
    · rfl
  cases h with
  | nothing =>
      cases hread : s.core.worker.reading with
      | none => exact hi.of_keep (hmarker hread) rfl id id id
      | some active =>
          refine .inr (.inr (.inr ?_))
          cases hw : s.core.worker with
          | mirrorWrite => rfl
          | _ => simp [hw, WorkerPc.reading] at hread
  | promoteKeep hw hk | take r hw hk | takeNone hw hk | pass r hw | wake hw hk | clear hw =>
      exact hi.of_keep (hmarker (by rw [hw]; rfl)) rfl id id
        (fun h => by simp [hw, WorkerPc.mirroring] at h)
  | promoteMove r hw hp hs =>
      -- the only transition into `connecting` that nobody mirrors
      cases hgate with
      | inl h => exact absurd ⟨hw, by simp [hp], hs⟩ h.2
      | inr h => exact .inr (h.imp_right .inl)
  | handOver | publish | mirrorRead => exact .inr (.inr (.inr rfl))
  | mirrorWrite active hw =>
      cases hgate with
      | inl h =>
          have hcurrent : active = s.coord.active := h.1 active (by simp [hw, WorkerPc.reading])
          refine .inl ?_
          show s.workerMarker = s.coord.active
          rw [← hcurrent]
          simp [workerMarker, hw]
      | inr h => exact .inr (h.imp_right .inl)

/-- One atom keeps the invariant. -/
theorem step {s s' : Service} {a : Label} {evs : List Event} (hi : MarkerInv s)
    (hgate : MarkerGate s a) (h : Effect s a s' evs) : MarkerInv s' := by
  cases h with
  | httpMove i pc hn hm hn' hm' | httpReport i pc hn hm hn' hm' =>
      exact hi.of_keep rfl rfl (fun h => by simp [hm] at h) id id
  | cancel _ hpc | enqueueDefer _ hpc | respond _ hpc | raise _ hpc | httpStart _ hpc =>
      exact hi.of_keep rfl rfl (fun h => by simp [hpc, HttpPc.mirroring] at h) id id
  | consume | resetSucceeded | pageMirrorRead | enqueueStart | enqueueMirrorRead =>
      exact .inr (.inl rfl)
  | pageMirrorWrite active hpc | enqueueMirrorWrite _ active hpc =>
      cases hgate with
      | inl h => exact .inl (h active (by simp [hpc, HttpPc.reading]))
      | inr h => exact .inr (.inr h)
  | restoreMove i t hc ho ho' | restoreReport t hc ho ho' =>
      have hm := RestorePc.mirroring_of_owesStart ho
      exact hi.of_keep rfl rfl id (fun h => by simp [hm] at h) id
  | restoreChecked t hpc | restoreStart t hpc =>
      exact hi.of_keep rfl rfl id (fun h => by simp [hpc, RestorePc.mirroring] at h) id
  | restoreReset c t hpc hpc' =>
      exact hi.of_keep rfl s.coord.resetFailure_active id
        (fun h => by simp [hpc, RestorePc.mirroring] at h) id
  | restoreQueue c t hpc hs hpc' =>
      exact .inr (.inr (.inl (by simp [hpc', RestorePc.mirroring])))
  | restoreMirrorRead t hpc hpc' =>
      exact .inr (.inr (.inl (by simp [hpc', RestorePc.mirroring])))
  | restoreMirrorWrite active t hpc hpc' =>
      cases hgate with
      | inl h => exact .inl (h active (by simp [hpc, RestorePc.reading]))
      | inr h => exact .inr (h.imp_right .inr)
  | worker core' evs hstep => exact hi.step_work hgate (Core.effect_of_step hstep)
  | connect a core' evs hstep =>
      cases Core.effect_of_step hstep with
      | nothing => exact hi
      | answer r a hw =>
          exact hi.of_keep rfl rfl id id (fun h => by simp [hw, WorkerPc.mirroring] at h)

/-- The invariant holds along every run whose steps meet the condition. -/
theorem of_run {tr : List Event} {s : Service} (h : serviceMachine.Run MarkerGate tr s) :
    MarkerInv s :=
  invariant_of_effect (I := fun _ s => MarkerInv s) (.inl rfl)
    (fun _ _ _ _ _ _ hi hgate heff => hi.step hgate heff) h

end MarkerInv

theorem Outside.no_thread_mirroring {s : Service} (h : Outside s) :
    s.http.mirroring = false ∧ s.restore.pc.mirroring = false ∧
      s.core.worker.mirroring = false := by
  obtain ⟨hhttp, hrestore, hworker⟩ := h
  have hm : s.http.mirroring = false := by
    cases hpc : s.http with
    | enqueue => rfl
    | _ => simpa [hpc, HttpPc.inside] using hhttp
  have hw : s.core.worker.mirroring = false := by
    cases hworker with
    | inl hwait => rw [hwait]; rfl
    | inr hc =>
        cases hpc : s.core.worker with
        | connecting => rfl
        | _ => simp [hpc, WorkerPc.isConnecting] at hc
  exact ⟨hm, hrestore, hw⟩

/-- **The marker tells the truth** in runs whose steps meet `MarkerGate`: when
no thread is inside a coordinator method, the marker exists exactly while the
state is `connecting`. -/
theorem marker_iff_connecting {tr : List Event} {s : Service}
    (h : serviceMachine.Run MarkerGate tr s) (hout : Outside s) :
    s.marker = true ↔ s.coord.connectState = .connecting := by
  obtain ⟨hhttp, hrestore, hworker⟩ := hout.no_thread_mirroring
  have hmarker : s.marker = s.coord.active := by
    simpa [MarkerInv, hhttp, hrestore, hworker] using MarkerInv.of_run h
  rw [hmarker]
  simp [Coordinator.active]

/-- While the attempt of a POST runs, the marker is there. -/
theorem marker_while_connecting :
    ∃ (tr : List Event) (s : Service), serviceMachine.Run MarkerGate tr s ∧ Outside s ∧
      s.coord.connectState = .connecting ∧ s.marker = true := by
  obtain ⟨tr, s, hrun, hout, hs⟩ := serviceMachine.exists_run MarkerGate
    [.worker, .worker, .http (.request (.connect ⟨.lit "Net", []⟩)), .http .go, .http .go,
      .http .go, .http .go, .http .go, .http .go, .worker, .worker, .worker, .worker, .worker]
    (fun _ s => Outside s ∧ s.coord.connectState = .connecting) (by decide)
  exact ⟨tr, s, hrun, hout, hs, (marker_iff_connecting hrun hout).mpr hs⟩

/-- The saved credential has failed and a POST finds `failed`, so it is
deferred; the worker promotes it and runs the attempt without the marker. -/
theorem marker_missing_after_promotion :
    ∃ (tr : List Event) (s : Service), serviceMachine.Reaches tr s ∧ Outside s ∧
      s.coord.connectState = .connecting ∧ s.marker = false :=
  serviceMachine.exists_run (fun _ _ => True)
    [.restore (.bool true), .restore .go, .restore (.bool false), .restore .go,
      .restore (.bool false), .restore (.saved (some ⟨.lit "Home", []⟩)), .restore .go,
      .restore .go, .restore .go, .restore .go, .restore .go,
      .worker, .worker, .worker, .connect .raised, .worker, .worker, .worker,
      .http (.request (.connect ⟨.lit "Net", []⟩)), .http .go, .http .go, .http .go, .http .go,
      .worker, .worker, .worker]
    (fun _ s => Outside s ∧ s.coord.connectState = .connecting ∧ s.marker = false) (by decide)

end SushidaOs
