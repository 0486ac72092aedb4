import Mathlib.Data.List.Nodup
import SushidaOs.Wifi.Core

/-!
# SushidaOs.Wifi.Slots

Where the requests are.

* `SlotInv` ties the state string to the work in hand: the state is
  `connecting` exactly while one request is queued in `_pending_request` or
  held by the worker.  It is why no assignment to `_pending_request` can
  overwrite a request.
* `pipeline` lists the requests passed to `self._connect`, then the one the
  worker has taken, then the two slots.  Every atom of the worker moves a
  request within this list without changing it: promoting, taking, passing
  and handing over leave the pipeline as it is.  Only a submission changes
  it, and it changes its end.  From this follow that no request is lost,
  passed twice or overtaken.
-/

namespace SushidaOs

open SushidaOs.Core

/-! ## the state and the work in hand -/

/-- The state string agrees with the worker's position and the queue slot. -/
structure SlotInv (s : Core) : Prop where
  /-- While the worker holds a request the slot is empty. -/
  held : s.worker.inHand ≠ none →
    s.coord.connectState = .connecting ∧ s.coord.pendingRequest = none
  /-- Otherwise `connecting` means that a request is queued. -/
  free : s.worker.inHand = none →
    (s.coord.connectState = .connecting ↔ s.coord.pendingRequest ≠ none)

namespace SlotInv

theorem fresh : SlotInv Core.fresh where
  held h := absurd rfl h
  free _ := by simp [Core.fresh, Coordinator.fresh]

/-- Outside `connecting` the worker holds nothing. -/
theorem inHand_eq_none {s : Core} (hi : SlotInv s) (h : s.coord.connectState ≠ .connecting) :
    s.worker.inHand = none := by
  by_contra hn
  exact h (hi.held hn).1

/-- Outside `connecting` nothing is queued. -/
theorem pendingRequest_eq_none {s : Core} (hi : SlotInv s)
    (h : s.coord.connectState ≠ .connecting) : s.coord.pendingRequest = none := by
  have hf := hi.free (hi.inHand_eq_none h)
  by_contra hn
  exact h (hf.mpr hn)

/-- An atom between two attempts that leaves the state and the queue slot. -/
theorem of_free {s s' : Core} (hi : SlotInv s) (hn : s.worker.inHand = none)
    (hn' : s'.worker.inHand = none) (hst : s'.coord.connectState = s.coord.connectState)
    (hp : s'.coord.pendingRequest = s.coord.pendingRequest) : SlotInv s' where
  held h := absurd hn' h
  free _ := by
    rw [hst, hp]
    exact hi.free hn

/-- An atom during an attempt that leaves the coordinator. -/
theorem of_held {s s' : Core} (hi : SlotInv s) (hn : s.worker.inHand ≠ none)
    (hn' : s'.worker.inHand ≠ none) (hcoord : s'.coord = s.coord) : SlotInv s' where
  held _ := by
    rw [hcoord]
    exact hi.held hn
  free h := absurd h hn'

/-- One atom keeps the agreement. -/
theorem step {s s' : Core} {a : Action} {evs : List Event} (hi : SlotInv s)
    (h : Effect s a s' evs) : SlotInv s' := by
  cases h with
  | nothing | report => exact hi
  | cancel | start => exact ⟨hi.held, hi.free⟩
  | queue c hs | enqueueStart c hs =>
      -- the state was idle, so the worker held nothing
      have hn := hi.inHand_eq_none (by simp [hs])
      exact ⟨fun h => absurd hn h, fun _ => by simp⟩
  | enqueueDefer c hs => exact ⟨hi.held, hi.free⟩
  | consume hs | resetSucceeded hs | resetFailure hs =>
      have hn := hi.inHand_eq_none (by simp [hs])
      have hp := hi.pendingRequest_eq_none (by simp [hs])
      exact ⟨fun h => absurd hn h, fun _ => by simp [hp]⟩
  | promoteKeep hw _ | takeNone hw _ | wake hw _ =>
      have hn : s.worker.inHand = none := by rw [hw]; rfl
      exact hi.of_free hn rfl rfl rfl
  | mirrorRead hw | mirrorWrite _ hw | clear hw =>
      have hn : s.worker.inHand = none := by rw [hw]; rfl
      exact hi.of_free hn rfl rfl rfl
  | promoteMove r hw hp hs => exact ⟨fun h => absurd rfl h, fun _ => by simp⟩
  | take r hw hp =>
      have hc := (hi.free (by simp [hw, WorkerPc.inHand])).mpr (by simp [hp])
      exact ⟨fun _ => ⟨hc, rfl⟩, fun h => by simp [WorkerPc.inHand] at h⟩
  | pass r hw | answer r _ hw =>
      have hn : s.worker.inHand ≠ none := by simp [hw, WorkerPc.inHand]
      exact hi.of_held hn (by simp [WorkerPc.inHand]) rfl
  | handOver r q b m hw hp => exact ⟨fun h => absurd rfl h, fun _ => by simp⟩
  | publish r b m hw hp =>
      have hh := hi.held (by simp [hw, WorkerPc.inHand])
      exact ⟨fun h => absurd rfl h, fun _ => by simp [hh.2]⟩

/-- Every reachable state keeps the agreement. -/
theorem of_run {C : Core → Action → Prop} {tr : List Event} {s : Core}
    (h : coreMachine.Run C tr s) : SlotInv s :=
  invariant_of_effect (I := fun _ s => SlotInv s) fresh (fun _ _ _ _ _ hi _ he => hi.step he) h

end SlotInv

/-- **The state agrees with the work in hand**: in every reachable state it is
`connecting` exactly when one of the two holds, a queued request or a taken
one whose outcome is not yet published; they never hold together, and in
every other state nothing is queued. -/
theorem connecting_iff_queued_xor_inHand {tr : List Event} {s : Core}
    (h : coreMachine.Reaches tr s) :
    (s.coord.connectState = .connecting ↔
      (s.coord.pendingRequest.isSome ^^ s.worker.inHand.isSome) = true) ∧
    ¬ (s.coord.pendingRequest.isSome = true ∧ s.worker.inHand.isSome = true) ∧
    (s.coord.connectState ≠ .connecting → s.coord.pendingRequest = none) := by
  have hi := SlotInv.of_run h
  cases hh : s.worker.inHand with
  | none =>
      have hf := hi.free hh
      refine ⟨?_, by simp, hi.pendingRequest_eq_none⟩
      rw [hf]
      cases s.coord.pendingRequest <;> simp
  | some r =>
      obtain ⟨hc, hp⟩ := hi.held (by simp [hh])
      refine ⟨by simp [hc, hp], by simp [hp], hi.pendingRequest_eq_none⟩

/-- A post taken by the worker: the state is `connecting` and the slot empty. -/
theorem connecting_while_inHand :
    ∃ (tr : List Event) (s : Core), coreMachine.Reaches tr s ∧ s.worker.inHand.isSome = true ∧
      (s.coord.connectState = .connecting ↔
        (s.coord.pendingRequest.isSome ^^ s.worker.inHand.isSome) = true) := by
  obtain ⟨tr, s, hrun, hs⟩ := coreMachine.exists_run (fun _ _ => True)
    [.enqueueInteractive ⟨.lit "Net", []⟩, .work, .work]
    (fun _ s => s.worker.inHand.isSome = true) (by decide)
  exact ⟨tr, s, hrun, hs, (connecting_iff_queued_xor_inHand hrun).1⟩

/-! ## the pipeline of requests -/

/-- The accepted submissions, in order. -/
def acceptedOf (tr : List Event) : List Submission :=
  tr.filterMap fun e => match e with
    | .accepted r => some r
    | _ => none

/-- The submissions passed to `self._connect`, in order. -/
def passedOf (tr : List Event) : List Submission :=
  tr.filterMap fun e => match e with
    | .passed r => some r
    | _ => none

@[simp] theorem acceptedOf_append (tr evs : List Event) :
    acceptedOf (tr ++ evs) = acceptedOf tr ++ acceptedOf evs := List.filterMap_append

@[simp] theorem passedOf_append (tr evs : List Event) :
    passedOf (tr ++ evs) = passedOf tr ++ passedOf evs := List.filterMap_append

/-- A later interactive submission replaced `r` before it was tried. -/
def Replaced (tr : List Event) (r : Submission) : Prop :=
  r.origin = .interactive ∧
    ∃ before after, acceptedOf tr = before ++ r :: after ∧
      ∃ q ∈ after, q.origin = .interactive

/-- In how many places the coordinator and its worker hold `r` untried. -/
def places (s : Core) (r : Submission) : Nat :=
  (if s.coord.pendingRequest = some r then 1 else 0) +
    (if s.coord.pendingInteractive = some r then 1 else 0) +
    (if s.worker.untried = some r then 1 else 0)

/-- What is held untried, in the order in which it will be passed. -/
def held (s : Core) : List Submission :=
  s.worker.untried.toList ++
    (s.coord.pendingRequest.toList ++ s.coord.pendingInteractive.toList)

/-- What was passed, then what is held. -/
def pipeline (tr : List Event) (s : Core) : List Submission := passedOf tr ++ held s

/-- What one atom does to the pipeline: nothing, or one submission enters. -/
inductive Enters (tr : List Event) (s s' : Core) (evs : List Event) : Prop
  /-- Requests only move along. -/
  | keep (hacc : acceptedOf evs = []) (hcount : s'.count = s.count)
      (hpipe : pipeline (tr ++ evs) s' = pipeline tr s)
  /-- A saved credential enters before the interactive slot. -/
  | saved (r : Submission) (hacc : acceptedOf evs = [r]) (hcount : s'.count = s.count + 1)
      (htag : r.tag = s.count) (horigin : r.origin = .restore)
      (front back : List Submission) (hold : pipeline tr s = front ++ back)
      (hpipe : pipeline (tr ++ evs) s' = front ++ r :: back)
  /-- An interactive submission enters at the end and replaces what the
  interactive slot held. -/
  | posted (r : Submission) (hacc : acceptedOf evs = [r]) (hcount : s'.count = s.count + 1)
      (htag : r.tag = s.count) (horigin : r.origin = .interactive)
      (front : List Submission)
      (hold : pipeline tr s = front ++ s.coord.pendingInteractive.toList)
      (hpipe : pipeline (tr ++ evs) s' = front ++ [r])

/-- One atom, seen on the pipeline. -/
theorem enters_of_effect {s s' : Core} {a : Action} {evs : List Event} (tr : List Event)
    (hi : SlotInv s) (h : Effect s a s' evs) : Enters tr s s' evs := by
  -- a request enters an idle coordinator, where nothing is queued or taken
  have idle : s.coord.connectState = .idle →
      s.coord.pendingRequest = none ∧ s.worker.untried = none := fun hs => by
    have hn := hi.inHand_eq_none (by simp [hs])
    refine ⟨hi.pendingRequest_eq_none (by simp [hs]), ?_⟩
    cases hw : s.worker <;> simp_all [WorkerPc.inHand, WorkerPc.untried]
  cases h with
  | nothing | report | cancel | start | consume | resetSucceeded | resetFailure =>
      exact .keep rfl rfl (by simp [pipeline, held, passedOf, Coordinator.cancelRestore,
        Coordinator.startAfterResponse])
  | queue c hs =>
      obtain ⟨hp, hu⟩ := idle hs
      exact .saved _ rfl rfl rfl rfl (passedOf tr) s.coord.pendingInteractive.toList
        (by simp [pipeline, held, hp, hu]) (by simp [pipeline, held, passedOf, hu])
  | enqueueStart c hs =>
      obtain ⟨hp, hu⟩ := idle hs
      exact .posted _ rfl rfl rfl rfl (passedOf tr) (by simp [pipeline, held, hp, hu])
        (by simp [pipeline, held, passedOf, hu])
  | enqueueDefer c hs =>
      exact .posted _ rfl rfl rfl rfl
        (passedOf tr ++ (s.worker.untried.toList ++ s.coord.pendingRequest.toList))
        (by simp [pipeline, held]) (by simp [pipeline, held, passedOf])
  | promoteKeep hw _ | takeNone hw _ | wake hw _ | mirrorRead hw | clear hw =>
      exact .keep rfl rfl (by simp [pipeline, held, passedOf, hw, WorkerPc.untried,
        Coordinator.clearRequest])
  | mirrorWrite _ hw | answer _ _ hw =>
      exact .keep rfl rfl (by simp [pipeline, held, passedOf, hw, WorkerPc.untried])
  | promoteMove r hw hp hs =>
      have hn := hi.pendingRequest_eq_none hs
      exact .keep rfl rfl (by simp [pipeline, held, passedOf, hw, hp, hn, WorkerPc.untried])
  | take r hw hp =>
      exact .keep rfl rfl (by simp [pipeline, held, passedOf, hw, hp, WorkerPc.untried])
  | pass r hw =>
      exact .keep rfl rfl (by simp [pipeline, held, passedOf, hw, WorkerPc.untried])
  | handOver r q b m hw hp =>
      have hn := (hi.held (by simp [hw, WorkerPc.inHand])).2
      exact .keep rfl rfl (by simp [pipeline, held, passedOf, hw, hp, hn, WorkerPc.untried])
  | publish r b m hw hp =>
      exact .keep rfl rfl (by simp [pipeline, held, passedOf, hw, hp, WorkerPc.untried])

/-- The invariant of the pipeline. -/
structure PipelineInv (tr : List Event) (s : Core) : Prop where
  slots : SlotInv s
  /-- Submissions are numbered in the order of acceptance. -/
  numbered : (acceptedOf tr).map (·.tag) = List.range s.count
  /-- The interactive slot holds interactive submissions. -/
  posted : ∀ q, s.coord.pendingInteractive = some q → q.origin = .interactive
  known : ∀ r ∈ pipeline tr s, r ∈ acceptedOf tr
  nodup : (pipeline tr s).Nodup
  ordered : ((pipeline tr s).filter Submission.isInteractive).Pairwise (·.tag < ·.tag)
  located : ∀ r ∈ acceptedOf tr, r ∈ pipeline tr s ∨ Replaced tr r

theorem Replaced.append {tr : List Event} {r : Submission} (h : Replaced tr r)
    (evs : List Event) : Replaced (tr ++ evs) r := by
  obtain ⟨ho, before, after, hacc, q, hq, hqo⟩ := h
  refine ⟨ho, before, after ++ acceptedOf evs, ?_, q, List.mem_append_left _ hq, hqo⟩
  rw [acceptedOf_append, hacc, List.append_assoc, List.cons_append]

/-- The interactive slot is only ever filled by `enqueue_interactive`. -/
theorem posted_of_effect {s s' : Core} {a : Action} {evs : List Event}
    (hi : ∀ q, s.coord.pendingInteractive = some q → q.origin = .interactive)
    (h : Effect s a s' evs) :
    ∀ q, s'.coord.pendingInteractive = some q → q.origin = .interactive := by
  intro q hq
  cases h with
  | enqueueDefer c hs =>
      simp only [Option.some.injEq] at hq
      subst hq
      rfl
  | enqueueStart c hs => simp at hq
  | promoteMove r hw hp hs => simp at hq
  | handOver r q' b m hw hp => simp at hq
  | _ => exact hi q hq

namespace PipelineInv

variable {tr : List Event} {s s' : Core} {evs : List Event}

/-- Accepted submissions carry numbers below the next one. -/
theorem tag_lt (hi : PipelineInv tr s) {r : Submission} (hr : r ∈ acceptedOf tr) :
    r.tag < s.count := by
  have hm : r.tag ∈ (acceptedOf tr).map (·.tag) := List.mem_map_of_mem hr
  rwa [hi.numbered, List.mem_range] at hm

/-- The next submission is none of the accepted ones. -/
theorem not_mem_of_tag (hi : PipelineInv tr s) {r : Submission} (ht : r.tag = s.count) :
    r ∉ acceptedOf tr := fun hr => by
  have hlt := hi.tag_lt hr
  omega

theorem numbered_snoc (hi : PipelineInv tr s) {r : Submission} (hacc : acceptedOf evs = [r])
    (ht : r.tag = s.count) (hcount : s'.count = s.count + 1) :
    (acceptedOf (tr ++ evs)).map (·.tag) = List.range s'.count := by
  rw [acceptedOf_append, hacc, List.map_append, hi.numbered, hcount, List.range_succ]
  simp [ht]

/-- Moving requests along. -/
theorem step_keep (hi : PipelineInv tr s) (hslots : SlotInv s')
    (hposted : ∀ q, s'.coord.pendingInteractive = some q → q.origin = .interactive)
    (hacc : acceptedOf evs = []) (hcount : s'.count = s.count)
    (hpipe : pipeline (tr ++ evs) s' = pipeline tr s) : PipelineInv (tr ++ evs) s' where
  slots := hslots
  numbered := by rw [acceptedOf_append, hacc, List.append_nil, hcount, hi.numbered]
  posted := hposted
  known r hr := by
    rw [hpipe] at hr
    simpa [hacc] using hi.known r hr
  nodup := by rw [hpipe]; exact hi.nodup
  ordered := by rw [hpipe]; exact hi.ordered
  located r hr := by
    rw [acceptedOf_append, hacc, List.append_nil] at hr
    rw [hpipe]
    exact (hi.located r hr).imp_right (·.append evs)

/-- A saved credential enters. -/
theorem step_saved (hi : PipelineInv tr s) (hslots : SlotInv s')
    (hposted : ∀ q, s'.coord.pendingInteractive = some q → q.origin = .interactive)
    {r : Submission} (hacc : acceptedOf evs = [r]) (hcount : s'.count = s.count + 1)
    (ht : r.tag = s.count) (ho : r.origin = .restore) {front back : List Submission}
    (hold : pipeline tr s = front ++ back)
    (hpipe : pipeline (tr ++ evs) s' = front ++ r :: back) : PipelineInv (tr ++ evs) s' where
  slots := hslots
  numbered := hi.numbered_snoc hacc ht hcount
  posted := hposted
  known q hq := by
    rw [hpipe, List.mem_append, List.mem_cons] at hq
    rw [acceptedOf_append, hacc, List.mem_append, List.mem_singleton]
    rcases hq with hq | hq | hq
    · exact .inl (hi.known q (by rw [hold]; exact List.mem_append_left _ hq))
    · exact .inr hq
    · exact .inl (hi.known q (by rw [hold]; exact List.mem_append_right _ hq))
  nodup := by
    rw [hpipe, List.nodup_middle, List.nodup_cons, ← hold]
    exact ⟨fun hr => hi.not_mem_of_tag ht (hi.known r hr), hi.nodup⟩
  ordered := by
    have hkeep : (pipeline (tr ++ evs) s').filter Submission.isInteractive =
        (pipeline tr s).filter Submission.isInteractive := by
      simp [hpipe, hold, Submission.isInteractive, ho]
    rw [hkeep]
    exact hi.ordered
  located q hq := by
    rw [acceptedOf_append, hacc, List.mem_append, List.mem_singleton] at hq
    rw [hpipe]
    rcases hq with hq | rfl
    · refine (hi.located q hq).imp (fun hm => ?_) (·.append evs)
      rw [hold, List.mem_append] at hm
      rw [List.mem_append, List.mem_cons]
      exact hm.imp_right .inr
    · exact .inl (by simp)

/-- An interactive submission enters. -/
theorem step_posted (hi : PipelineInv tr s) (hslots : SlotInv s')
    (hposted : ∀ q, s'.coord.pendingInteractive = some q → q.origin = .interactive)
    {r : Submission} (hacc : acceptedOf evs = [r]) (hcount : s'.count = s.count + 1)
    (ht : r.tag = s.count) (ho : r.origin = .interactive) {front : List Submission}
    (hold : pipeline tr s = front ++ s.coord.pendingInteractive.toList)
    (hpipe : pipeline (tr ++ evs) s' = front ++ [r]) : PipelineInv (tr ++ evs) s' := by
  have hfront : ∀ q ∈ front, q ∈ acceptedOf tr := fun q hq =>
    hi.known q (by rw [hold]; exact List.mem_append_left _ hq)
  refine ⟨hslots, hi.numbered_snoc hacc ht hcount, hposted, ?_, ?_, ?_, ?_⟩
  · intro q hq
    rw [hpipe, List.mem_append, List.mem_singleton] at hq
    rw [acceptedOf_append, hacc, List.mem_append, List.mem_singleton]
    exact hq.imp_left (hfront q)
  · have hnd := hi.nodup
    rw [hold] at hnd
    rw [hpipe, List.nodup_middle, List.append_nil, List.nodup_cons]
    exact ⟨fun hr => hi.not_mem_of_tag ht (hfront r hr), hnd.of_append_left⟩
  · have hord := hi.ordered
    rw [hold, List.filter_append, List.pairwise_append] at hord
    rw [hpipe, List.filter_append, List.pairwise_append]
    refine ⟨hord.1, List.Pairwise.filter _ (List.pairwise_singleton _ _), ?_⟩
    intro q hq q' hq'
    have hlt := hi.tag_lt (hfront q (List.mem_of_mem_filter hq))
    have hq'r : q' = r := List.mem_singleton.mp (List.mem_of_mem_filter hq')
    rw [hq'r, ht]
    exact hlt
  · intro q hq
    rw [acceptedOf_append, hacc, List.mem_append, List.mem_singleton] at hq
    rw [hpipe]
    rcases hq with hq | rfl
    · rcases hi.located q hq with hm | hrep
      · rw [hold, List.mem_append] at hm
        rcases hm with hm | hm
        · exact .inl (List.mem_append_left _ hm)
        · -- `q` was in the interactive slot, which `r` has overwritten
          have hqo := hi.posted q (by simpa using hm)
          obtain ⟨before, after, hsplit⟩ := List.append_of_mem hq
          refine .inr ⟨hqo, before, after ++ [r], ?_, r, by simp, ho⟩
          rw [acceptedOf_append, hacc, hsplit, List.append_assoc, List.cons_append]
      · exact .inr (hrep.append evs)
    · exact .inl (by simp)

theorem step (hi : PipelineInv tr s) {a : Action} (h : Effect s a s' evs) :
    PipelineInv (tr ++ evs) s' := by
  have hslots := hi.slots.step h
  have hposted := posted_of_effect hi.posted h
  cases enters_of_effect tr hi.slots h with
  | keep hacc hcount hpipe => exact hi.step_keep hslots hposted hacc hcount hpipe
  | saved r hacc hcount ht ho front back hold hpipe =>
      exact hi.step_saved hslots hposted hacc hcount ht ho hold hpipe
  | posted r hacc hcount ht ho front hold hpipe =>
      exact hi.step_posted hslots hposted hacc hcount ht ho hold hpipe

theorem of_run {C : Core → Action → Prop} (h : coreMachine.Run C tr s) : PipelineInv tr s := by
  refine invariant_of_effect ?_ (fun _ _ _ _ _ hi _ he => hi.step he) h
  exact ⟨SlotInv.fresh, rfl, by simp [Core.fresh, Coordinator.fresh],
    by simp [pipeline, held, passedOf, Core.fresh, Coordinator.fresh, WorkerPc.untried],
    by simp [pipeline, held, passedOf, Core.fresh, Coordinator.fresh, WorkerPc.untried],
    by simp [pipeline, held, passedOf, Core.fresh, Coordinator.fresh, WorkerPc.untried],
    by simp [acceptedOf]⟩

end PipelineInv

/-! ## no lost, duplicated or reordered request -/

theorem count_toList (o : Option Submission) (r : Submission) :
    o.toList.count r = if o = some r then 1 else 0 := by
  cases o with
  | none => simp
  | some q => simp [List.count_singleton]

theorem count_held (s : Core) (r : Submission) : (held s).count r = places s r := by
  simp only [held, places, List.count_append, count_toList]
  omega

/-- Where an accepted submission is: passed and held nowhere, or held in
exactly one place, or replaced. -/
theorem PipelineInv.whereabouts {tr : List Event} {s : Core} (hi : PipelineInv tr s)
    {r : Submission} (hr : r ∈ acceptedOf tr) :
    (r ∈ passedOf tr ∧ places s r = 0) ∨ (r ∉ passedOf tr ∧ places s r = 1) ∨
      (r ∉ passedOf tr ∧ places s r = 0 ∧ Replaced tr r) := by
  have hnd := hi.nodup
  rw [pipeline, List.nodup_append] at hnd
  obtain ⟨-, hheld, hdisj⟩ := hnd
  rw [← count_held]
  by_cases hp : r ∈ passedOf tr
  · refine .inl ⟨hp, List.count_eq_zero.mpr fun hh => ?_⟩
    exact hdisj r hp r hh rfl
  · by_cases hh : r ∈ held s
    · exact .inr (.inl ⟨hp, List.count_eq_one_of_mem hheld hh⟩)
    · refine .inr (.inr ⟨hp, List.count_eq_zero.mpr hh, ?_⟩)
      refine (hi.located r hr).resolve_left fun hm => ?_
      rw [pipeline, List.mem_append] at hm
      exact hm.elim hp hh

/-- A replaced submission is not the latest interactive one. -/
theorem PipelineInv.not_replaced_of_latest {tr : List Event} {s : Core} (hi : PipelineInv tr s)
    {r : Submission}
    (hlast : ∀ q ∈ acceptedOf tr, q.origin = .interactive → q.tag ≤ r.tag) :
    ¬ Replaced tr r := by
  rintro ⟨-, before, after, hacc, q, hq, hqo⟩
  have hle := hlast q (by rw [hacc]; simp [hq]) hqo
  -- the numbers increase along the accepted submissions
  have hord : ((acceptedOf tr).map (·.tag)).Pairwise (· < ·) := by
    rw [hi.numbered]
    exact List.pairwise_lt_range
  rw [hacc, List.map_append, List.map_cons, List.pairwise_append, List.pairwise_cons] at hord
  have hlt := hord.2.1.1 q.tag (List.mem_map_of_mem hq)
  omega

/-- **No lost, duplicated or reordered request**: in every reachable state,
with submissions numbered in the order of acceptance,

* what was passed to `self._connect` was accepted, and is passed once;
* each accepted submission was passed, or is held in exactly one place, or
  is an interactive one replaced by a later interactive one;
* so the latest interactive submission was passed or is held;
* interactive submissions are passed in the order of submission. -/
theorem requests_conserved {tr : List Event} {s : Core} (h : coreMachine.Reaches tr s) :
    (acceptedOf tr).map (·.tag) = List.range s.count ∧
    (passedOf tr).Nodup ∧ (∀ r ∈ passedOf tr, r ∈ acceptedOf tr) ∧
    (∀ r ∈ acceptedOf tr, (r ∈ passedOf tr ∧ places s r = 0) ∨
      (r ∉ passedOf tr ∧ places s r = 1) ∨
      (r ∉ passedOf tr ∧ places s r = 0 ∧ Replaced tr r)) ∧
    (∀ r ∈ acceptedOf tr, r.origin = .interactive →
      (∀ q ∈ acceptedOf tr, q.origin = .interactive → q.tag ≤ r.tag) →
      r ∈ passedOf tr ∨ places s r = 1) ∧
    ((passedOf tr).filter Submission.isInteractive).Pairwise (·.tag < ·.tag) := by
  have hi := PipelineInv.of_run h
  refine ⟨hi.numbered, ?_, ?_, fun r hr => hi.whereabouts hr, ?_, ?_⟩
  · exact (List.nodup_append.mp hi.nodup).1
  · exact fun r hr => hi.known r (List.mem_append_left _ hr)
  · intro r hr _ hlast
    rcases hi.whereabouts hr with hp | hp | hp
    · exact .inl hp.1
    · exact .inr hp.2
    · exact absurd hp.2.2 (hi.not_replaced_of_latest hlast)
  · have hord := hi.ordered
    rw [pipeline, List.filter_append, List.pairwise_append] at hord
    exact hord.1

/-- A saved credential and two posts while it runs: the first post is
replaced, the second is held. -/
theorem requests_conserved_two_posts :
    ∃ (tr : List Event) (s : Core), coreMachine.Reaches tr s ∧ (passedOf tr).map (·.tag) = [0] ∧
      (acceptedOf tr).map (·.tag) = [0, 1, 2] ∧
      ∀ r ∈ acceptedOf tr, (r ∈ passedOf tr ∧ places s r = 0) ∨
        (r ∉ passedOf tr ∧ places s r = 1) ∨
        (r ∉ passedOf tr ∧ places s r = 0 ∧ Replaced tr r) := by
  obtain ⟨tr, s, hrun, hpassed, hacc⟩ := coreMachine.exists_run (fun _ _ => True)
    [.queueConnection ⟨.lit "Home", []⟩, .work, .work, .work,
      .enqueueInteractive ⟨.lit "Net", []⟩, .enqueueInteractive ⟨.lit "Net", []⟩]
    (fun tr _ => (passedOf tr).map (·.tag) = [0] ∧ (acceptedOf tr).map (·.tag) = [0, 1, 2])
    (by decide)
  exact ⟨tr, s, hrun, hpassed, hacc, (requests_conserved hrun).2.2.2.1⟩

end SushidaOs
