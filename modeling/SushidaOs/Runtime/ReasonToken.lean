import SushidaOs.Runtime.StateMain

/-!
# SushidaOs.Runtime.ReasonToken

The reasons that `write_state` accepts (`_REASON_PATTERN`, `_validate` and
`write_state` of `sushida_os/runtime/runtime_state.py`).

In the pattern `$` stands for the end of the text, or the place before a line
feed at the end.  So besides the tokens there is one more text for each of
them.
-/

namespace SushidaOs

open PyStr

/-- No system call fails. -/
def FileEnv.Works (F : FileEnv) : Prop := ∀ journal call, F.ok journal call = true

section Works

variable {F : FileEnv}

theorem run_works (h : F.Works) (call : FileCall) (journal : List FileEvent) :
    (F.run call journal).1 = true :=
  h journal call

theorem put_works (h : F.Works) (call : FileCall) (buffer : List UInt8) (journal : List FileEvent) :
    (F.put call buffer journal).1.1 = true := h journal call

/-- Nothing fails while the file is written. -/
theorem streamBody_works (h : F.Works) (payload : List UInt8) (journal : List FileEvent) :
    (F.streamBody payload journal).1.1 = true := by
  have hput := put_works h .write payload journal
  rw [FileEnv.streamBody, Script.bind_apply]
  generalize F.put .write payload journal = written at hput
  obtain ⟨⟨ok, rest⟩, next⟩ := written
  simp only at hput
  subst hput
  have hflush := put_works h .flush rest next
  simp only [Script.bind_apply]
  generalize F.put .flush rest next = flushed at hflush
  obtain ⟨⟨ok, rest⟩, next⟩ := flushed
  simp only at hflush
  subst hflush
  exact run_works h .fsync next

theorem writeStream_works (h : F.Works) (payload : List UInt8) (journal : List FileEvent) :
    (F.writeStream payload journal).1 = true := by
  have hbody := streamBody_works h payload (F.run .fdopen journal).2
  rw [FileEnv.writeStream, Script.bind_apply, run_works h]
  simp only [Script.bind_apply]
  generalize F.streamBody payload (F.run .fdopen journal).2 = body at hbody
  obtain ⟨⟨written, rest⟩, next⟩ := body
  simp only at hbody
  subst hbody
  exact put_works h .close rest next

/-- Nor does the temporary file. -/
theorem withTemporary_works (h : F.Works) {body : Script FileEvent Bool}
    (hbody : ∀ journal, (body journal).1 = true) (journal : List FileEvent) :
    (F.withTemporary body journal).1 = true := by
  rw [FileEnv.withTemporary, Script.bind_apply, run_works h]
  simp only [Script.bind_apply, hbody, run_works h]
  rfl

end Works

namespace Publication

/-- So the state is replaced. -/
theorem replaceState_works {F : FileEnv} (h : F.Works) (payload : List UInt8)
    (journal : List FileEvent) : (replaceState F payload journal).1 = true := by
  rw [replaceState, Script.bind_apply, writeStream_works h]
  simp only [Script.bind_apply, run_works h]

/-- Where nothing fails, `write_state` accepts the valid states. -/
theorem writeState_ok_iff {F : FileEnv} (h : F.Works) {target : TargetStat}
    (htarget : target = .missing ∨ target = .present) (s : RuntimeState) :
    (writeState F (some true) target s).run.1 = .ok () ↔ s.isValid = true := by
  cases hvalid : s.isValid with
  | false =>
      rw [writeState, hvalid]
      exact iff_of_false nofun nofun
  | true =>
      have hsize : ¬ maxStateBytes < (statePayload s).length := by
        have hlength := (RuntimeState.stateText_safe hvalid).2
        rw [statePayload, Utf8.asciiBytes, List.length_append, List.length_map,
          List.length_singleton, maxStateBytes]
        omega
      have hfound : ¬ (decide (target = .symlink) || decide (target = .osError)) = true := by
        rcases htarget with rfl | rfl <;> decide
      have hdone := withTemporary_works h (replaceState_works h (statePayload s)) []
      refine iff_of_true ?_ rfl
      rw [writeState, hvalid, if_neg (by decide)]
      simp only [if_neg hfound, if_neg hsize]
      rw [Script.run, Script.bind_apply, hdone]
      rfl

end Publication

namespace RuntimeState

/-- Before a line feed at the end the pattern accepts the tokens. -/
theorem isReason_append_lf (t : PyStr) : isReason (t ++ [0x0a]) = isToken t := by
  cases t with
  | nil => decide
  | cons c cs =>
      rw [List.cons_append, isReason, isToken]
      simp only [List.getLast?_append_cons, List.getLast?_singleton, if_true, List.dropLast_concat]

/-- The pattern accepts the tokens, and each of them with a line feed behind it. -/
theorem isReason_iff (r : PyStr) :
    isReason r = true ↔ isToken r = true ∨ ∃ t, isToken t = true ∧ r = t ++ [0x0a] := by
  by_cases hlast : r.getLast? = some 0x0a
  · have hnot : ¬ isToken r = true := fun h => ((isToken_iff r).mp h).2 hlast
    rw [or_iff_right hnot]
    constructor
    · intro h
      have hcut := List.dropLast_append_getLast? 0x0a hlast
      refine ⟨r.dropLast, ?_, hcut.symm⟩
      rw [← isReason_append_lf, hcut, h]
    · rintro ⟨t, ht, rfl⟩
      rw [isReason_append_lf, ht]
  · have hiff := isToken_iff r
    rw [and_iff_left hlast] at hiff
    rw [← hiff, or_iff_left]
    rintro ⟨t, -, rfl⟩
    simp at hlast

end RuntimeState

namespace Publication

/-- **The grammar of the reasons** is kept for every text but a token with a line feed
behind it. -/
theorem reason_grammar_iff {F : FileEnv} (hworks : F.Works) {target : TargetStat}
    (htarget : target = .missing ∨ target = .present) {route : PyStr}
    (hroute : Route.isRoute route = true) (timeSync progress : Bool) (r : PyStr) :
    ((writeState F (some true) target ⟨route, timeSync, progress, r⟩).run.1 = .ok () ↔
        RuntimeState.isToken r = true) ↔
      ¬ ∃ t, RuntimeState.isToken t = true ∧ r = t ++ [0x0a] := by
  rw [writeState_ok_iff hworks htarget, RuntimeState.isValid, Bool.and_eq_true,
    and_iff_right hroute, RuntimeState.isReason_iff]
  constructor
  · rintro h ⟨t, ht, rfl⟩
    have hlast := ((RuntimeState.isToken_iff (t ++ [0x0a])).mp (h.mp (.inr ⟨t, ht, rfl⟩))).2
    simp at hlast
  · exact fun h => or_iff_left h

theorem calmFiles_works : StateCli.calmFiles.Works := fun _ _ => rfl

/-- `online-full` is accepted, as a token. -/
theorem online_full_accepted :
    ((writeState StateCli.calmFiles (some true) .missing
        ⟨lit "online", false, false, lit "online-full"⟩).run.1 = .ok () ↔
        RuntimeState.isToken (lit "online-full") = true) ↔
      ¬ ∃ t, RuntimeState.isToken t = true ∧ lit "online-full" = t ++ [0x0a] :=
  reason_grammar_iff calmFiles_works (.inl rfl) (by decide) false false (lit "online-full")

/-- `online-full` with a line feed is accepted, and is no token. -/
theorem line_feed_accepted :
    (writeState StateCli.calmFiles (some true) .missing
        ⟨lit "online", false, false, lit "online-full" ++ [0x0a]⟩).run.1 = .ok () ∧
      RuntimeState.isToken (lit "online-full" ++ [0x0a]) = false := by
  refine ⟨(writeState_ok_iff calmFiles_works (.inl rfl) _).mpr ?_, ?_⟩
  · decide
  · decide

end Publication

end SushidaOs
