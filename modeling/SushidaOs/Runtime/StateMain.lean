import SushidaOs.Runtime.StateText

/-!
# SushidaOs.Runtime.StateMain

The command line of the runtime state, from the bytes of the file to the bytes
of the file (`sushida_os/runtime/runtime_state.py`).

What `write_state` dumps is read back as the state that was written.  With it,
each mode of `main` is followed from the arguments through the reader and the
writer, whichever of its system calls fail.
-/

namespace SushidaOs

open PyStr JsonLoads
open Crash (Triple)

namespace RuntimeState

/-! ## what was written -/

/-- The characters of a valid state: those of a token, and the line feed. -/
def isStateChar (c : CodePoint) : Bool := isTokenChar c || c == 0x0a

/-- A route is a short word. -/
theorem stateChar_route {s : PyStr} (h : Route.isRoute s = true) :
    s.all isStateChar = true ∧ s.length ≤ 7 := by
  obtain ⟨r, rfl⟩ := Route.exists_name h
  cases r <;> decide

/-- So is a reason. -/
theorem stateChar_reason {r : PyStr} (h : isReason r = true) :
    r.all isStateChar = true ∧ r.length ≤ 65 := by
  have htoken : ∀ {c : CodePoint}, isTokenChar c = true → isStateChar c = true := by
    intro c hc
    rw [isStateChar, hc, Bool.true_or]
  cases r with
  | nil => simp [isReason] at h
  | cons c cs =>
      simp only [isReason, Bool.and_eq_true, decide_eq_true_eq] at h
      have hc : isStateChar c = true := htoken (by rw [isTokenChar, h.1.1]; rfl)
      rw [List.all_cons, hc, Bool.true_and, List.length_cons]
      by_cases hlast : cs.getLast? = some 0x0a
      · rw [if_pos hlast] at h
        have hcut := List.dropLast_append_getLast? 0x0a hlast
        rw [← hcut, List.all_append, List.length_append, Bool.and_eq_true]
        refine ⟨⟨?_, by decide⟩, by simp only [List.length_singleton]; omega⟩
        exact List.all_eq_true.mpr fun d hd => htoken (List.all_eq_true.mp h.1.2 d hd)
      · rw [if_neg hlast] at h
        exact ⟨List.all_eq_true.mpr fun d hd => htoken (List.all_eq_true.mp h.1.2 d hd), by omega⟩

/-- A state character is written as itself, the line feed as an escape. -/
theorem escapeAscii_stateChar {c : CodePoint} (h : isStateChar c = true) :
    (Json.escapeAscii c = [c] ∧ isPlain c = true ∧ c.val < 0x80) ∨ c = 0x0a := by
  by_cases hlf : c = 0x0a
  · exact .inr hlf
  · left
    simp only [isStateChar, beq_eq_false_iff_ne.mpr hlf, Bool.or_false, isTokenChar, isLower,
      Bool.or_eq_true, Bool.and_eq_true, decide_eq_true_eq] at h
    have hbounds : 0x2d ≤ c.val ∧ c.val ≤ 0x7a ∧ c.val ≠ 0x5c := by
      rcases h with (h | h) | h
      · omega
      · omega
      · rw [h]
        decide
    have hne : ∀ {d : CodePoint}, d.val < 0x2d ∨ d.val = 0x5c → c ≠ d := by
      rintro d hd rfl
      omega
    have hquote : c ≠ 0x22 := hne (by decide)
    have hback : c ≠ 0x5c := hne (by decide)
    refine ⟨?_, ?_, by omega⟩
    · have hb : c ≠ 0x08 := hne (by decide)
      have ht : c ≠ 0x09 := hne (by decide)
      have hf : c ≠ 0x0c := hne (by decide)
      have hr : c ≠ 0x0d := hne (by decide)
      have hprintable : (0x20 ≤ c.val && c.val ≤ 0x7e) = true := by
        simp only [Bool.and_eq_true, decide_eq_true_eq]
        omega
      simp only [Json.escapeAscii, hquote, hback, hb, ht, hlf, hf, hr, hprintable, decide_false,
        Bool.or_false, Bool.false_eq_true, if_false, if_true]
    · simp only [isPlain, Bool.and_eq_true, decide_eq_true_eq, bne_iff_ne]
      exact ⟨⟨by omega, hquote⟩, hback⟩

theorem escapes_stateChar {c : CodePoint} (h : isStateChar c = true) :
    Escapes Json.escapeAscii c := by
  cases escapeAscii_stateChar h with
  | inl hplain => exact escapes_plain hplain.2.1 hplain.1
  | inr hlf =>
      refine ⟨false, rfl, fun rest => ?_⟩
      rw [hlf]
      exact scanChars_simple (e := 0x6e) rfl rest

/-- An ASCII character that text mode leaves alone. -/
def isSafe (c : CodePoint) : Bool := c.val < 0x80 && c != 0x0d

/-- A state character takes at most two safe characters. -/
theorem escapeAscii_safe {c : CodePoint} (h : isStateChar c = true) :
    (Json.escapeAscii c).all isSafe = true ∧ (Json.escapeAscii c).length ≤ 2 := by
  cases escapeAscii_stateChar h with
  | inl hplain =>
      obtain ⟨hesc, hplain, hascii⟩ := hplain
      rw [hesc]
      refine ⟨?_, by simp⟩
      have hcr : c ≠ 0x0d := by
        rintro rfl
        contradiction
      simp [isSafe, hascii, hcr]
  | inr hlf =>
      rw [hlf]
      decide

theorem quoteAscii_safe {s : PyStr} (h : s.all isStateChar = true) :
    (Json.quoteAscii s).all isSafe = true ∧ (Json.quoteAscii s).length ≤ 2 * s.length + 2 := by
  have hbody : (s.flatMap Json.escapeAscii).all isSafe = true ∧
      (s.flatMap Json.escapeAscii).length ≤ 2 * s.length := by
    induction s with
    | nil => decide
    | cons c cs ih =>
        rw [List.all_cons, Bool.and_eq_true] at h
        have hc := escapeAscii_safe h.1
        have hcs := ih h.2
        rw [List.flatMap_cons, List.all_append, hc.1, hcs.1, List.length_append, List.length_cons]
        exact ⟨rfl, by omega⟩
  rw [Json.quoteAscii, List.all_append, List.all_append, hbody.1, List.length_append,
    List.length_append]
  exact ⟨rfl, by simp only [List.length_singleton]; omega⟩

/-- A truth value in JSON. -/
def boolText (b : Bool) : PyStr := if b then lit "true" else lit "false"

/-- The pieces of the text of a state. -/
def statePieces (s : RuntimeState) : List PyStr :=
  [ lit "\x7b\"active_route\":", Json.quoteAscii s.activeRoute,
    lit ",\"connection_in_progress\":", boolText s.connectionInProgress,
    lit ",\"last_reason\":", Json.quoteAscii s.lastReason,
    lit ",\"schema_version\":1,\"time_sync_required\":", boolText s.timeSyncRequired,
    lit "\x7d" ]

theorem stateText_eq (s : RuntimeState) : Publication.stateText s = (statePieces s).flatten := by
  have hdumps : Publication.stateText s = lit "\x7b" ++ join (lit ",")
      [ lit "\"active_route\":" ++ Json.quoteAscii s.activeRoute,
        lit "\"connection_in_progress\":" ++ boolText s.connectionInProgress,
        lit "\"last_reason\":" ++ Json.quoteAscii s.lastReason, lit "\"schema_version\":1",
        lit "\"time_sync_required\":" ++ boolText s.timeSyncRequired ] ++ lit "\x7d" := rfl
  have h₁ : lit "\x7b\"active_route\":" = lit "\x7b" ++ lit "\"active_route\":" := by decide
  have h₂ : lit ",\"connection_in_progress\":" =
      lit "," ++ lit "\"connection_in_progress\":" := by decide
  have h₃ : lit ",\"last_reason\":" = lit "," ++ lit "\"last_reason\":" := by decide
  have h₄ : lit ",\"schema_version\":1,\"time_sync_required\":" =
      lit "," ++ lit "\"schema_version\":1" ++ lit "," ++ lit "\"time_sync_required\":" := by decide
  rw [hdumps, statePieces, h₁, h₂, h₃, h₄, join]
  simp only [List.intersperse_cons_cons, List.intersperse_singleton, List.flatten_cons,
    List.flatten_nil, List.append_assoc, List.append_nil]

/-- The text of a valid state is safe and short. -/
theorem stateText_safe {s : RuntimeState} (h : s.isValid = true) :
    (Publication.stateText s).all isSafe = true ∧ (Publication.stateText s).length ≤ 300 := by
  simp only [isValid, Bool.and_eq_true] at h
  have hroute := stateChar_route h.1
  have hreason := stateChar_reason h.2
  have hroute' := quoteAscii_safe hroute.1
  have hreason' := quoteAscii_safe hreason.1
  have hbool : ∀ b, (boolText b).all isSafe = true ∧ (boolText b).length ≤ 5 := by decide
  have hprogress := hbool s.connectionInProgress
  have htimeSync := hbool s.timeSyncRequired
  have h₁ : (lit "\x7b\"active_route\":").all isSafe = true ∧
      (lit "\x7b\"active_route\":").length = 16 := by decide
  have h₂ : (lit ",\"connection_in_progress\":").all isSafe = true ∧
      (lit ",\"connection_in_progress\":").length = 26 := by decide
  have h₃ : (lit ",\"last_reason\":").all isSafe = true ∧
      (lit ",\"last_reason\":").length = 15 := by decide
  have h₄ : (lit ",\"schema_version\":1,\"time_sync_required\":").all isSafe = true ∧
      (lit ",\"schema_version\":1,\"time_sync_required\":").length = 41 := by decide
  have h₅ : (lit "\x7d").all isSafe = true ∧ (lit "\x7d").length = 1 := by decide
  rw [stateText_eq, statePieces]
  simp only [List.flatten_cons, List.flatten_nil, List.all_append, List.length_append, h₁, h₂, h₃,
    h₄, h₅, hroute'.1, hreason'.1, hprogress.1, htimeSync.1, Bool.and_true, List.all_nil,
    List.length_nil, true_and]
  omega

/-- The fields of the text of a state. -/
def writtenFields (s : RuntimeState) : List Field :=
  [ ⟨lit "active_route", 0x22 :: (s.activeRoute.flatMap Json.escapeAscii ++ [0x22]),
      .str s.activeRoute⟩,
    ⟨lit "connection_in_progress", boolText s.connectionInProgress, .bool s.connectionInProgress⟩,
    ⟨lit "last_reason", 0x22 :: (s.lastReason.flatMap Json.escapeAscii ++ [0x22]),
      .str s.lastReason⟩,
    ⟨lit "schema_version", [0x31], .int 1⟩,
    ⟨lit "time_sync_required", boolText s.timeSyncRequired, .bool s.timeSyncRequired⟩ ]

/-- The file is an object of five fields. -/
theorem stateText_eq_write (s : RuntimeState) :
    Publication.stateText s ++ [0x0a] = 0x7b :: Field.write s.writtenFields [0x0a] := by
  have h₁ : lit "\x7b\"active_route\":" = 0x7b :: 0x22 :: (lit "active_route" ++ [0x22, 0x3a]) := by
    decide
  have h₂ : lit ",\"connection_in_progress\":" =
      0x2c :: 0x22 :: (lit "connection_in_progress" ++ [0x22, 0x3a]) := by decide
  have h₃ : lit ",\"last_reason\":" = 0x2c :: 0x22 :: (lit "last_reason" ++ [0x22, 0x3a]) := by
    decide
  have h₄ : lit ",\"schema_version\":1,\"time_sync_required\":" =
      0x2c :: 0x22 :: (lit "schema_version" ++ 0x22 :: 0x3a :: 0x31 :: 0x2c :: 0x22 ::
        (lit "time_sync_required" ++ [0x22, 0x3a])) := by decide
  have h₅ : lit "\x7d" = [0x7d] := by decide
  rw [stateText_eq, statePieces, h₁, h₂, h₃, h₄, h₅, Json.quoteAscii, Json.quoteAscii]
  simp only [writtenFields, Field.write, List.flatten_cons, List.flatten_nil, List.append_assoc,
    List.cons_append, List.nil_append, List.append_nil]

/-- The text of a valid state is read as its document. -/
theorem loads_stateText (toFloat : PyStr → PyFloat) (depth : Nat) {s : RuntimeState}
    (h : s.isValid = true) :
    loads toFloat (depth + 1) (Publication.stateText s ++ [0x0a]) =
      .ok (.dict (s.writtenFields.map fun field => (field.key, field.value))) := by
  simp only [isValid, Bool.and_eq_true] at h
  have hroute := List.all_eq_true.mp (stateChar_route h.1).1
  have hreason := List.all_eq_true.mp (stateChar_reason h.2).1
  have hreads : ∀ field ∈ s.writtenFields, field.Reads (scanOnce toFloat depth) := by
    intro field hfield
    simp only [writtenFields, List.mem_cons, List.not_mem_nil, or_false] at hfield
    rcases hfield with rfl | rfl | rfl | rfl | rfl
    · exact .str toFloat depth (by decide) fun c hc => escapes_stateChar (hroute c hc)
    · exact .bool toFloat depth (by decide) _
    · exact .str toFloat depth (by decide) fun c hc => escapes_stateChar (hreason c hc)
    · exact .one toFloat depth (by decide)
    · exact .bool toFloat depth (by decide) _
  rw [stateText_eq_write, loads_write toFloat depth (by simp [writtenFields]) hreads (by decide)]
  rfl

/-- **Round trip**: `read_state` finds the state that `write_state` wrote. -/
theorem readState_statePayload (L : JsonLimits) {s : RuntimeState} (h : s.isValid = true) :
    readState L (.regular (Publication.statePayload s)) = .ok (some s) := by
  obtain ⟨hsafe, hlength⟩ := stateText_safe h
  have hchars : ∀ c ∈ Publication.stateText s ++ [0x0a], c.val < 0x80 ∧ c ≠ 0x0d := by
    intro c hc
    cases List.mem_append.mp hc with
    | inl htext =>
        have hc := List.all_eq_true.mp hsafe c htext
        simpa [isSafe] using hc
    | inr hlf => rw [List.mem_singleton.mp hlf]; decide
  have hbytes : Publication.statePayload s =
      Utf8.asciiBytes (Publication.stateText s ++ [0x0a]) := by
    rw [Publication.statePayload, Utf8.asciiBytes, Utf8.asciiBytes, List.map_append]
    rfl
  have hsize : ¬ Publication.maxStateBytes < (Publication.statePayload s).length := by
    rw [hbytes, Utf8.asciiBytes, List.length_map, List.length_append, List.length_singleton,
      Publication.maxStateBytes]
    omega
  obtain ⟨depth, hdepth⟩ := Nat.exists_eq_succ_of_ne_zero L.depth_pos.ne'
  have hload := loads_stateText L.toFloat depth h
  rw [readState, if_neg hsize, ofContent, hbytes,
    Utf8.decodeAscii_asciiBytes fun c hc => (hchars c hc).1]
  simp only
  rw [universalNewlines_free fun c hc => (hchars c hc).2, hdepth, hload]
  simp only [isValid, Bool.and_eq_true] at h
  show ofPyValues (.str s.activeRoute) (.bool s.timeSyncRequired) (.bool s.connectionInProgress)
    (.str s.lastReason) = .ok (some s)
  rw [ofPyValues_known h.1, if_pos h.2]

end RuntimeState

namespace StateCli

/-! ## the arguments -/

/-- The value of the last occurrence of a flag.  An argument that is taken as
the value of a flag is no flag itself. -/
def lastValue (flag : PyStr) : List PyStr → Option PyStr
  | [] => none
  | [_] => none
  | name :: value :: rest =>
      if name = lit "--clear-time-sync" then lastValue flag (value :: rest)
      else match lastValue flag rest with
        | some later => some later
        | none => if name = flag then some value else none

/-- The state that the write flags name; an absent flag is `0`. -/
def namedState (argv : List PyStr) : RuntimeState where
  activeRoute := (lastValue (lit "--route") argv).getD []
  timeSyncRequired := lastValue (lit "--time-sync-required") argv = some (lit "1")
  connectionInProgress := lastValue (lit "--connection-in-progress") argv = some (lit "1")
  lastReason := (lastValue (lit "--reason") argv).getD []

/-- What the loop makes of a write flag. -/
def setBool (current : Bool) : Option PyStr → Bool
  | none => current
  | some value => value = lit "1"

/-- The locals of the write flags after the loop. -/
structure Follows (args : Args) (last : PyStr → Option PyStr) (args' : Args) : Prop where
  route : args'.route = (last (lit "--route")).getD args.route
  reason : args'.reason = (last (lit "--reason")).getD args.reason
  timeSync : args'.timeSyncRequired =
    setBool args.timeSyncRequired (last (lit "--time-sync-required"))
  progress : args'.connectionInProgress =
    setBool args.connectionInProgress (last (lit "--connection-in-progress"))

theorem parseBoolFlag_eq {value : PyStr} {v : Bool} (h : parseBoolFlag value = some v) :
    v = decide (value = lit "1") := by
  unfold parseBoolFlag at h
  split at h
  · next hzero =>
      rw [← Option.some.inj h, hzero]
      decide
  · split at h
    · next hone =>
        rw [← Option.some.inj h, hone]
        decide
    · contradiction

/-- One flag with its value. -/
theorem setFlag_follows {args args' : Args} {flag value : PyStr}
    (h : setFlag args flag value = some args') :
    Follows args (fun name => if flag = name then some value else none) args' := by
  unfold setFlag at h
  split at h
  · next hflag =>
      rw [← Option.some.inj h, hflag]
      exact ⟨rfl, rfl, rfl, rfl⟩
  split at h
  · next hflag =>
      obtain ⟨field, -, rfl⟩ := Option.map_eq_some_iff.mp h
      rw [hflag]
      exact ⟨rfl, rfl, rfl, rfl⟩
  split at h
  · next hflag =>
      obtain ⟨v, -, rfl⟩ := Option.map_eq_some_iff.mp h
      rw [hflag]
      exact ⟨rfl, rfl, rfl, rfl⟩
  split at h
  · next hflag =>
      rw [← Option.some.inj h, hflag]
      exact ⟨rfl, rfl, rfl, rfl⟩
  split at h
  · next hflag =>
      rw [← Option.some.inj h, hflag]
      exact ⟨rfl, rfl, rfl, rfl⟩
  split at h
  · next hflag =>
      obtain ⟨v, hv, rfl⟩ := Option.map_eq_some_iff.mp h
      rw [hflag, parseBoolFlag_eq hv]
      exact ⟨rfl, rfl, rfl, rfl⟩
  split at h
  · next hflag =>
      obtain ⟨v, hv, rfl⟩ := Option.map_eq_some_iff.mp h
      rw [hflag, parseBoolFlag_eq hv]
      exact ⟨rfl, rfl, rfl, rfl⟩
  · contradiction

/-- A later value overrides an earlier one. -/
theorem Follows.trans {args args₁ args₂ : Args} {first later : PyStr → Option PyStr}
    (h₁ : Follows args first args₁) (h₂ : Follows args₁ later args₂) :
    Follows args (fun flag => (later flag).or (first flag)) args₂ := by
  have hget : ∀ {flag : PyStr} {x y z : PyStr}, z = (later flag).getD y →
      y = (first flag).getD x → z = ((later flag).or (first flag)).getD x := by
    rintro flag x y z rfl rfl
    cases later flag <;> rfl
  have hbool : ∀ {flag : PyStr} {x y z : Bool}, z = setBool y (later flag) →
      y = setBool x (first flag) → z = setBool x ((later flag).or (first flag)) := by
    rintro flag x y z rfl rfl
    cases later flag <;> rfl
  exact ⟨hget h₂.route h₁.route, hget h₂.reason h₁.reason, hbool h₂.timeSync h₁.timeSync,
    hbool h₂.progress h₁.progress⟩

/-- The loop keeps the last value of each flag. -/
theorem parseArgs_follows {args args' : Args} {argv : List PyStr}
    (h : parseArgs args argv = some args') :
    Follows args (fun flag => lastValue flag argv) args' := by
  induction args, argv using parseArgs.induct with
  | case1 args =>
      rw [parseArgs, Option.some.injEq] at h
      rw [h]
      exact ⟨rfl, rfl, rfl, rfl⟩
  | case2 args =>
      rw [parseArgs, if_pos rfl, Option.some.injEq] at h
      rw [← h]
      exact ⟨rfl, rfl, rfl, rfl⟩
  | case3 args flag hflag =>
      rw [parseArgs, if_neg hflag] at h
      contradiction
  | case4 args value rest ih =>
      rw [parseArgs, if_pos rfl] at h
      have hrest := ih h
      have hlast : ∀ flag, lastValue flag (lit "--clear-time-sync" :: value :: rest) =
          lastValue flag (value :: rest) := fun flag => by rw [lastValue, if_pos rfl]
      simp only [hlast]
      exact ⟨hrest.route, hrest.reason, hrest.timeSync, hrest.progress⟩
  | case5 args flag value rest hflag hset =>
      rw [parseArgs, if_neg hflag, hset] at h
      contradiction
  | case6 args flag value rest hflag args₁ hset ih =>
      rw [parseArgs, if_neg hflag, hset] at h
      have hlast : ∀ name, lastValue name (flag :: value :: rest) =
          (lastValue name rest).or (if flag = name then some value else none) := by
        intro name
        rw [lastValue, if_neg hflag]
        cases lastValue name rest <;> rfl
      simp only [hlast]
      exact (setFlag_follows hset).trans (ih h)

/-- The write mode is asked for the state that the flags name. -/
theorem namedState_of_request {testMode : Bool} {argv : List PyStr} {s : RuntimeState}
    (h : request testMode argv = some (.write s)) : s = namedState argv := by
  unfold request at h
  split at h
  · contradiction
  next args hargs =>
  split at h
  · contradiction
  split at h
  · contradiction
  split at h
  · contradiction
  split at h
  · simp at h
  split at h
  · simp at h
  split at h
  · simp at h
  · rw [Option.some.injEq, Request.write.injEq] at h
    have hfollows := parseArgs_follows hargs
    have hbool : ∀ last : Option PyStr, setBool false last = decide (last = some (lit "1")) := by
      intro last
      cases last <;> simp [setBool]
    rw [← h, namedState, hfollows.route, hfollows.reason, hfollows.timeSync, hfollows.progress,
      hbool, hbool]

/-! ## main -/

end StateCli

/-- What `write_state` finds at its target. -/
def StateEntry.stat : StateEntry → Publication.TargetStat
  | missing => .missing
  | symlink => .symlink
  | special | regular _ => .present

/-- The state file after the calls that led to a disk. -/
def StateEntry.after (entry : StateEntry) (d : Disk) : StateEntry :=
  if d.target = .own then .regular d.own.data else entry

namespace StateCli

/-- `main` from its call of `write_state` on. -/
def publish (F : FileEnv) (directory : Option Bool) (entry : StateEntry) (s : RuntimeState) :
    Script FileEvent Completed := do
  match ← Publication.writeState F directory entry.stat s with
  | .ok () => pure ⟨0, []⟩
  | .error _ => pure ⟨1, []⟩

/-- `main`; an exception of `read_state` is not caught and ends the process with
status 1. -/
def mainCalls (L : JsonLimits) (F : FileEnv) (testMode : Bool) (directory : Option Bool)
    (argv : List PyStr) (entry : StateEntry) : Script FileEvent Completed :=
  match request testMode argv with
  | none => pure ⟨2, []⟩
  | some r =>
      match r.plan ((RuntimeState.readState L entry).mapError fun _ => .typeError) with
      | .exit result => pure result
      | .publish s => publish F directory entry s

section Main

variable {L : JsonLimits} {F : FileEnv} {testMode : Bool} {directory : Option Bool}
  {argv : List PyStr} {entry : StateEntry} {old : OldTarget}

/-- Unpublished, the file is the old one. -/
theorem after_unpublished {d : Disk} (h : Unpublished old d) : entry.after d = entry := by
  have hne : d.target ≠ .own := by
    rw [h.target]
    exact Link.ofOld_ne_own old.target
  rw [StateEntry.after, if_neg hne]

/-- Published, it is the new one. -/
theorem after_published {new : List UInt8} {d : Disk} (h : Published old new d) :
    entry.after d = .regular new := by
  rw [StateEntry.after, if_pos h.target, h.own]

/-- A state is published whole, or the file stays as it was. -/
theorem publish_triple (s : RuntimeState) :
    Triple (publishing old (Publication.statePayload s)) (Publication.Untouched old)
      (publish F directory entry s) fun res d =>
        (res = ⟨0, []⟩ ∧ s.isValid = true ∧
          entry.after d = .regular (Publication.statePayload s)) ∨
        (res = ⟨1, []⟩ ∧ (F.UnlinkMissing old → entry.after d = entry)) := by
  refine Triple.bind (Publication.writeState_triple F directory entry.stat s) fun res => ?_
  cases res with
  | ok _ =>
      refine Triple.pure (fun d h => h.1.whole) ?_
      rintro d ⟨-, hok, -⟩
      obtain ⟨hvalid, hpublished⟩ := hok rfl
      exact .inl ⟨rfl, hvalid, after_published hpublished⟩
  | error e =>
      refine Triple.pure (fun d h => h.1.whole) ?_
      rintro d ⟨-, -, herror⟩
      exact .inr ⟨rfl, fun hunlink => after_unpublished (herror e rfl hunlink)⟩

/-- The state file after a run of a script. -/
def fileAfter (old : OldTarget) (entry : StateEntry) (p : Script FileEvent Completed) :
    StateEntry :=
  entry.after (p.run.2.foldl Disk.step old.disk)

/-- A failure leaves the file, and a success the new state in it. -/
theorem publish_run (hunlink : F.UnlinkMissing old) (s : RuntimeState) :
    ((publish F directory entry s).run.1.status ≠ 0 →
      fileAfter old entry (publish F directory entry s) = entry) ∧
    ((publish F directory entry s).run.1.status = 0 →
      RuntimeState.readState L (fileAfter old entry (publish F directory entry s)) =
        .ok (some s)) := by
  have htriple := @publish_triple F directory entry old s
  obtain ⟨-, ⟨hres, hvalid, hafter⟩ | ⟨hres, hafter⟩⟩ := htriple.run ⟨⟨rfl, rfl⟩, rfl⟩
  · refine ⟨fun hfailed => absurd (by rw [hres]) hfailed, fun _ => ?_⟩
    have hfile : fileAfter old entry (publish F directory entry s) =
        .regular (Publication.statePayload s) := hafter
    rw [hfile]
    exact RuntimeState.readState_statePayload L hvalid
  · refine ⟨fun _ => hafter hunlink, fun hzero => ?_⟩
    rw [hres] at hzero
    exact absurd hzero Nat.one_ne_zero

/-- Without a system call the file stays as it was. -/
theorem fileAfter_pure (result : Completed) : fileAfter old entry (pure result) = entry :=
  @after_unpublished entry old old.disk ⟨rfl, rfl⟩

/-- A mode that reads ends with status zero only after it has read a state. -/
theorem exists_read {r : Request} (hrequest : request testMode argv = some r)
    (herror : ∀ e, r.plan (.error e) = .exit ⟨1, []⟩) (hnone : r.plan (.ok none) = .exit ⟨1, []⟩)
    (hzero : (mainCalls L F testMode directory argv entry).run.1.status = 0) :
    ∃ s, RuntimeState.readState L entry = .ok (some s) := by
  simp only [mainCalls, hrequest] at hzero
  cases hread : RuntimeState.readState L entry with
  | error e =>
      simp only [hread, Except.mapError, herror] at hzero
      exact absurd hzero Nat.one_ne_zero
  | ok state =>
      cases state with
      | none =>
          simp only [hread, Except.mapError, hnone] at hzero
          exact absurd hzero Nat.one_ne_zero
      | some s => exact ⟨s, rfl⟩

/-- **Only what is named**: what a run of the command line leaves in the state
file, whichever system calls of its write fail.  Of the calls only `unlink` is bound: on a
name that is gone it raises nothing but `FileNotFoundError` (`UnlinkMissing`). -/
theorem cli_changes_only_what_it_names (L : JsonLimits) (F : FileEnv) (testMode : Bool)
    (directory : Option Bool) (argv : List PyStr) (entry : StateEntry) (old : OldTarget)
    (hunlink : F.UnlinkMissing old) :
    ((mainCalls L F testMode directory argv entry).run.1.status ≠ 0 →
      fileAfter old entry (mainCalls L F testMode directory argv entry) = entry) ∧
    (∀ field, request testMode argv = some (.print field) →
      (mainCalls L F testMode directory argv entry).run.2 = []) ∧
    (request testMode argv = some .clearTimeSync →
      (mainCalls L F testMode directory argv entry).run.1.status = 0 →
      ∃ s, RuntimeState.readState L entry = .ok (some s) ∧
        RuntimeState.readState L
          (fileAfter old entry (mainCalls L F testMode directory argv entry)) =
          .ok (some { s with timeSyncRequired := false })) ∧
    (∀ v, request testMode argv = some (.setProgress v) →
      (mainCalls L F testMode directory argv entry).run.1.status = 0 →
      ∃ s, RuntimeState.readState L entry = .ok (some s) ∧
        RuntimeState.readState L
          (fileAfter old entry (mainCalls L F testMode directory argv entry)) =
          .ok (some { s with connectionInProgress := v })) ∧
    (∀ s, request testMode argv = some (.write s) →
      (mainCalls L F testMode directory argv entry).run.1.status = 0 →
      RuntimeState.readState L
        (fileAfter old entry (mainCalls L F testMode directory argv entry)) =
        .ok (some (namedState argv))) := by
  refine ⟨?_, ?_, ?_, ?_, ?_⟩
  · unfold mainCalls
    split
    · exact fun _ => fileAfter_pure _
    · split
      · exact fun _ => fileAfter_pure _
      · exact (publish_run (L := L) hunlink _).1
  · intro field hrequest
    simp only [mainCalls, hrequest]
    cases RuntimeState.readState L entry with
    | error e => rfl
    | ok state => cases state <;> rfl
  · intro hrequest hzero
    obtain ⟨s, hread⟩ := exists_read hrequest (fun _ => rfl) rfl hzero
    have hmain : mainCalls L F testMode directory argv entry =
        publish F directory entry { s with timeSyncRequired := false } := by
      simp only [mainCalls, hrequest, hread]
      rfl
    rw [hmain] at hzero ⊢
    exact ⟨s, hread, (publish_run hunlink _).2 hzero⟩
  · intro v hrequest hzero
    obtain ⟨s, hread⟩ := exists_read hrequest (fun _ => rfl) rfl hzero
    refine ⟨s, hread, ?_⟩
    by_cases hsame : s.connectionInProgress = v
    · have hmain : mainCalls L F testMode directory argv entry = pure ⟨0, []⟩ := by
        simp only [mainCalls, hrequest, hread, Except.mapError, Request.plan, if_pos hsame]
      rw [hmain, fileAfter_pure, hread, ← hsame]
    · have hmain : mainCalls L F testMode directory argv entry =
          publish F directory entry { s with connectionInProgress := v } := by
        simp only [mainCalls, hrequest, hread, Except.mapError, Request.plan, if_neg hsame]
      rw [hmain] at hzero ⊢
      exact (publish_run hunlink _).2 hzero
  · intro s hrequest hzero
    have hmain : mainCalls L F testMode directory argv entry = publish F directory entry s := by
      simp only [mainCalls, hrequest]
      rfl
    rw [hmain] at hzero ⊢
    rw [← namedState_of_request hrequest]
    exact (publish_run hunlink _).2 hzero

end Main

/-- A machine on which every call succeeds. -/
def calmFiles : FileEnv := ⟨fun _ _ => true, fun _ _ => 0⟩

/-- The first write at boot. -/
def onlineArgs : List PyStr :=
  ["--directory", "/run/sushida-os", "--route", "online", "--reason", "online-full"].map lit

set_option maxRecDepth 8000 in
theorem cli_writes_online :
    request false onlineArgs = some (.write (namedState onlineArgs)) ∧
      RuntimeState.readState .default (fileAfter ⟨none, []⟩ .missing
        (mainCalls .default calmFiles false (some true) onlineArgs .missing)) =
          .ok (some (namedState onlineArgs)) :=
  ⟨by decide, (cli_changes_only_what_it_names .default calmFiles false (some true)
    onlineArgs .missing ⟨none, []⟩ (fun _ _ => rfl)).2.2.2.2 (namedState onlineArgs)
    (by decide) rfl⟩

/-! ## the coarser view -/

mutual

/-- A JSON value as `json.loads` returns it. -/
def PyValue.ofJson : Json → PyValue
  | .null => .none
  | .bool b => .bool b
  | .int n => .int n
  | .float q => .float (.finite q)
  | .str s => .str s
  | .arr items => .list (PyValue.ofItems items)
  | .obj fields => .dict (PyValue.ofFields fields)

def PyValue.ofItems : List Json → List PyValue
  | [] => []
  | item :: items => PyValue.ofJson item :: PyValue.ofItems items

def PyValue.ofFields : List (PyStr × Json) → List (PyStr × PyValue)
  | [] => []
  | (key, value) :: fields => (key, PyValue.ofJson value) :: PyValue.ofFields fields

end

section Document

theorem get_ofFields (key : PyStr) (fields : List (PyStr × Json)) :
    PyValue.get key (PyValue.ofFields fields) = (Json.lookup key fields).map PyValue.ofJson := by
  induction fields with
  | nil => simp [PyValue.ofFields, PyValue.get, Json.lookup]
  | cons field rest ih =>
      obtain ⟨k, value⟩ := field
      rw [PyValue.ofFields, PyValue.get, Json.lookup, ih]
      split <;> rfl

theorem all_ofFields (p : PyStr → Bool) (fields : List (PyStr × Json)) :
    ((PyValue.ofFields fields).all fun field => p field.1) = fields.all fun field => p field.1 := by
  induction fields with
  | nil => simp [PyValue.ofFields]
  | cons field rest ih =>
      obtain ⟨k, value⟩ := field
      rw [PyValue.ofFields, List.all_cons, List.all_cons, ih]

theorem eqInt_ofJson (value : Json) : (PyValue.ofJson value).eqInt 1 = value.eqInt 1 := by
  cases value <;> rfl

/-- The checks see a value of JSON as what it is. -/
theorem ofPyValues_ofJson (route timeSync progress reason : Json) :
    (RuntimeState.ofPyValues (PyValue.ofJson route) (PyValue.ofJson timeSync)
      (PyValue.ofJson progress) (PyValue.ofJson reason)).mapError (fun _ => TypeErr.typeError) =
      RuntimeState.ofValues route timeSync progress reason := by
  cases route with
  | str route =>
      by_cases hroute : Route.isRoute route = true
      · cases timeSync with
        | bool timeSync =>
            cases progress with
            | bool progress =>
                cases reason with
                | str reason =>
                    simp only [PyValue.ofJson, RuntimeState.ofPyValues, RuntimeState.ofValues,
                      hroute, Bool.not_true, Bool.false_eq_true, if_false]
                    split <;> rfl
                | _ =>
                    simp only [PyValue.ofJson, RuntimeState.ofPyValues, RuntimeState.ofValues,
                      hroute, Bool.not_true, Bool.false_eq_true, if_false]
                    rfl
            | _ =>
                simp only [PyValue.ofJson, RuntimeState.ofPyValues, RuntimeState.ofValues,
                  hroute, Bool.not_true, Bool.false_eq_true, if_false]
                rfl
        | _ =>
            simp only [PyValue.ofJson, RuntimeState.ofPyValues, RuntimeState.ofValues,
              hroute, Bool.not_true, Bool.false_eq_true, if_false]
            rfl
      · rw [Bool.not_eq_true] at hroute
        simp only [PyValue.ofJson, RuntimeState.ofPyValues, RuntimeState.ofValues, hroute,
          Bool.not_false, if_true]
        rfl
  | _ => rfl

/-- A file that holds a document of JSON is read as that document. -/
theorem readState_ofJson {L : JsonLimits} {content : List UInt8} {text : PyStr} {data : Json}
    (hsize : content.length ≤ Publication.maxStateBytes)
    (htext : Utf8.decodeAscii content = some text)
    (hload : loads L.toFloat L.depth text.universalNewlines = .ok (PyValue.ofJson data)) :
    (RuntimeState.readState L (.regular content)).mapError (fun _ => TypeErr.typeError) =
      RuntimeState.read (.document data) := by
  rw [RuntimeState.readState, if_neg (Nat.not_lt.mpr hsize), RuntimeState.ofContent, htext]
  simp only [hload]
  cases data with
  | obj fields =>
      rw [PyValue.ofJson, RuntimeState.ofPyValue, RuntimeState.read,
        all_ofFields (RuntimeState.expectedKeys.contains ·)]
      simp only [get_ofFields]
      split
      · rfl
      · cases Json.lookup (lit "schema_version") fields with
        | none => rfl
        | some version =>
            cases Json.lookup (lit "active_route") fields with
            | none => rfl
            | some route =>
                cases Json.lookup (lit "time_sync_required") fields with
                | none => rfl
                | some timeSync =>
                    cases Json.lookup (lit "connection_in_progress") fields with
                    | none => rfl
                    | some progress =>
                        cases Json.lookup (lit "last_reason") fields with
                        | none => rfl
                        | some reason =>
                            simp only [Option.map_some, eqInt_ofJson]
                            split
                            · rfl
                            · exact ofPyValues_ofJson route timeSync progress reason
  | _ => rfl

end Document

/-- With the file seen through `json.loads` and one answer for the whole write,
`main` ends in the same way. -/
theorem mainCalls_refines (L : JsonLimits) (F : FileEnv) (testMode : Bool)
    (directory : Option Bool) (argv : List PyStr) {entry : StateEntry} {file : StateFile}
    (hread : (RuntimeState.readState L entry).mapError (fun _ => TypeErr.typeError) =
      RuntimeState.read file) :
    ∃ ioOk, (mainCalls L F testMode directory argv entry).run.1 =
      (main testMode ioOk argv file).1 := by
  unfold mainCalls main
  cases request testMode argv with
  | none => exact ⟨true, rfl⟩
  | some r =>
      simp only [hread]
      cases r.plan (RuntimeState.read file) with
      | exit result => exact ⟨true, rfl⟩
      | publish s =>
          have htriple := @publish_triple F directory entry ⟨none, []⟩ s
          obtain ⟨-, ⟨hres, hvalid, -⟩ | ⟨hres, -⟩⟩ := htriple.run ⟨⟨rfl, rfl⟩, rfl⟩
          · refine ⟨true, ?_⟩
            rw [hres, Plan.run, hvalid]
            rfl
          · refine ⟨false, ?_⟩
            rw [hres, Plan.run, Bool.and_false]
            rfl

end StateCli

end SushidaOs
