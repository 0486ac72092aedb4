import SushidaOs.JsonLoads
import SushidaOs.Publication

/-!
# SushidaOs.Runtime.StateText

The runtime state file as bytes (`sushida_os/runtime/runtime_state.py`):
`read_state` from the bytes on, and the command line with every system call of
its write.

`SushidaOs.Runtime.State` starts behind `json.loads`.  What lies before it is
that the loader knows values JSON has no word for, that a text may nest too
deeply, and that what `write_state` dumps is read back.
-/

namespace SushidaOs

open PyStr JsonLoads

/-- The state file as `lstat` finds it. -/
inductive StateEntry where
  | missing
  /-- A symbolic link. -/
  | symlink
  /-- Neither a link nor a regular file. -/
  | special
  | regular (content : List UInt8)
  deriving DecidableEq, Repr

/-- What `read_state` raises. -/
inductive ReadExc where
  /-- `re.match` on something that is no string. -/
  | typeError
  | recursionError
  deriving DecidableEq, Repr

namespace RuntimeState

/-! ## read_state -/

/-- `_validate` on the values of a document. -/
def ofPyValues (route timeSync progress reason : PyValue) :
    Except ReadExc (Option RuntimeState) :=
  match route with
  | .str route =>
      if !Route.isRoute route then .ok none
      else match timeSync, progress with
        | .bool timeSync, .bool progress =>
            match reason with
            | .str reason =>
                if isReason reason then .ok (some ⟨route, timeSync, progress, reason⟩)
                else .ok none
            | _ => .error .typeError
        | _, _ => .ok none
  | _ => .ok none

/-- `read_state` after `json.loads`. -/
def ofPyValue : PyValue → Except ReadExc (Option RuntimeState)
  | .dict fields =>
      if !fields.all fun field => expectedKeys.contains field.1 then .ok none
      else match PyValue.get (lit "schema_version") fields,
          PyValue.get (lit "active_route") fields,
          PyValue.get (lit "time_sync_required") fields,
          PyValue.get (lit "connection_in_progress") fields,
          PyValue.get (lit "last_reason") fields with
        | some version, some route, some timeSync, some progress, some reason =>
            if !version.eqInt 1 then .ok none else ofPyValues route timeSync progress reason
        | _, _, _, _, _ => .ok none
  | _ => .ok none

/-- `json.loads(target.read_text(encoding="ascii"))` and the rest of
`read_state`; a `ValueError` is caught. -/
def ofContent (L : JsonLimits) (content : List UInt8) : Except ReadExc (Option RuntimeState) :=
  match Utf8.decodeAscii content with
  | none => .ok none
  | some text =>
      match loads L.toFloat L.depth text.universalNewlines with
      | .error .decodeError | .error .valueError => .ok none
      | .error .recursionError | .error .outOfFuel => .error .recursionError
      | .ok data => ofPyValue data

/-- `read_state`. -/
def readState (L : JsonLimits) : StateEntry → Except ReadExc (Option RuntimeState)
  | .regular content =>
      if Publication.maxStateBytes < content.length then .ok none else ofContent L content
  | _ => .ok none

/-! ## damaged files -/

/-- `[a-z][a-z0-9-]{0,63}` with nothing behind it. -/
def isToken : PyStr → Bool
  | [] => false
  | c :: cs => isLower c && cs.all isTokenChar && cs.length ≤ 63

/-- The pattern accepts the tokens, and a token with a line feed behind it. -/
theorem isToken_iff (r : PyStr) :
    isToken r = true ↔ isReason r = true ∧ r.getLast? ≠ some 0x0a := by
  cases r with
  | nil => simp [isToken, isReason]
  | cons c cs =>
      have hlf : isTokenChar 0x0a = false := by decide
      by_cases hlast : cs.getLast? = some 0x0a
      · have hmem : 0x0a ∈ cs := List.mem_of_getLast? hlast
        have hnot : isToken (c :: cs) ≠ true := by
          intro h
          simp only [isToken, Bool.and_eq_true] at h
          exact absurd (List.all_eq_true.mp h.1.2 _ hmem) (by simp [hlf])
        have hright : (c :: cs).getLast? = some 0x0a := by
          rw [List.getLast?_cons, hlast]
          rfl
        exact iff_of_false hnot fun h => h.2 hright
      · have hsame : isReason (c :: cs) = isToken (c :: cs) := by
          simp only [isReason, isToken, if_neg hlast]
        rw [hsame]
        refine ⟨fun h => ⟨h, fun hright => ?_⟩, fun h => h.1⟩
        rw [List.getLast?_cons] at hright
        cases htail : cs.getLast? with
        | some d =>
            rw [htail] at hright hlast
            exact hlast hright
        | none =>
            rw [htail] at hright
            simp only [isToken, Bool.and_eq_true] at h
            have hc : c = 0x0a := Option.some.inj hright
            rw [hc] at h
            exact absurd h.1.1 (by decide)

/-- The five keys of the schema, and no other. -/
def FiveKeys (fields : List (PyStr × PyValue)) : Prop :=
  ∀ key, key ∈ fields.map Prod.fst ↔ key ∈ expectedKeys

/-- The content is a JSON object with these fields. -/
def IsObject (L : JsonLimits) (content : List UInt8) (fields : List (PyStr × PyValue)) : Prop :=
  ∃ text, Utf8.decodeAscii content = some text ∧
    loads L.toFloat L.depth text.universalNewlines = .ok (.dict fields)

theorem get_eq_some_iff_mem {key : PyStr} {fields : List (PyStr × PyValue)} :
    (∃ value, PyValue.get key fields = some value) ↔ key ∈ fields.map Prod.fst := by
  induction fields with
  | nil => simp [PyValue.get]
  | cons field rest ih =>
      obtain ⟨k, v⟩ := field
      rw [PyValue.get, List.map_cons, List.mem_cons]
      by_cases hk : k = key
      · simp [hk]
      · rw [if_neg hk, ih]
        simp [Ne.symm hk]

/-- An object that passes every check of `read_state` before the one of
`last_reason`. -/
structure Candidate (fields : List (PyStr × PyValue)) (state : PyStr × Bool × Bool)
    (version reason : PyValue) : Prop where
  keys : FiveKeys fields
  has_version : PyValue.get (lit "schema_version") fields = some version
  one : version.eqInt 1 = true
  has_route : PyValue.get (lit "active_route") fields = some (.str state.1)
  known : Route.isRoute state.1 = true
  has_timeSync : PyValue.get (lit "time_sync_required") fields = some (.bool state.2.1)
  has_progress : PyValue.get (lit "connection_in_progress") fields = some (.bool state.2.2)
  has_reason : PyValue.get (lit "last_reason") fields = some reason

/-- Five different keys of the five are all of them. -/
theorem all_expectedKeys {fields : List (PyStr × PyValue)} (h : FiveKeys fields) :
    (fields.all fun field => expectedKeys.contains field.1) = true := by
  rw [List.all_eq_true]
  intro field hfield
  rw [List.contains_iff_mem]
  exact (h field.1).mp (List.mem_map.mpr ⟨field, hfield, rfl⟩)

/-- What is left to check of a document with the right fields. -/
theorem ofPyValue_candidate {fields : List (PyStr × PyValue)} {state : PyStr × Bool × Bool}
    {version reason : PyValue} (h : Candidate fields state version reason) :
    ofPyValue (.dict fields) =
      ofPyValues (.str state.1) (.bool state.2.1) (.bool state.2.2) reason := by
  simp only [ofPyValue, all_expectedKeys h.keys, h.has_version, h.has_route, h.has_timeSync,
    h.has_progress, h.has_reason, h.one, Bool.not_true, Bool.false_eq_true, if_false]

theorem ofPyValues_known {route : PyStr} (h : Route.isRoute route = true) (timeSync progress : Bool)
    (reason : PyStr) :
    ofPyValues (.str route) (.bool timeSync) (.bool progress) (.str reason) =
      if isReason reason then .ok (some ⟨route, timeSync, progress, reason⟩) else .ok none := by
  simp only [ofPyValues, h, Bool.not_true, Bool.false_eq_true, if_false]

/-- An object that is no candidate is not read. -/
theorem ofPyValue_rejects {fields : List (PyStr × PyValue)}
    (h : ∀ state version reason, ¬ Candidate fields state version reason) :
    ofPyValue (.dict fields) = .ok none := by
  rw [ofPyValue]
  split
  · rfl
  next hall =>
  split
  · next version route timeSync progress reason hversion hroute htimeSync hprogress hreason =>
      split
      · rfl
      next hone =>
      unfold ofPyValues
      split
      · next route =>
          split
          · rfl
          next hknown =>
          split
          · next timeSync progress =>
              have hkeys : FiveKeys fields := by
                intro key
                constructor
                · intro hkey
                  obtain ⟨field, hfield, rfl⟩ := List.mem_map.mp hkey
                  rw [Bool.not_eq_true', Bool.not_eq_false] at hall
                  exact List.contains_iff_mem.mp (List.all_eq_true.mp hall field hfield)
                · intro hkey
                  rw [← get_eq_some_iff_mem]
                  simp only [expectedKeys, List.map_cons, List.map_nil, List.mem_cons,
                    List.not_mem_nil, or_false] at hkey
                  rcases hkey with rfl | rfl | rfl | rfl | rfl
                  · exact ⟨_, hversion⟩
                  · exact ⟨_, hroute⟩
                  · exact ⟨_, htimeSync⟩
                  · exact ⟨_, hprogress⟩
                  · exact ⟨_, hreason⟩
              exact absurd ⟨hkeys, hversion, by simpa using hone, hroute, by simpa using hknown,
                htimeSync, hprogress, hreason⟩ (h (route, timeSync, progress) version reason)
          · rfl
      · rfl
  · rfl

/-- `read_state` answers, and a state only from a document of the schema. -/
def FailsClosed (L : JsonLimits) (content : List UInt8) : Prop :=
  ∃ res, readState L (.regular content) = .ok res ∧ ∀ s, res = some s →
    Route.isRoute s.activeRoute = true ∧ isToken s.lastReason = true ∧
    ∃ fields, IsObject L content fields ∧ FiveKeys fields ∧
      PyValue.get (lit "schema_version") fields = some (.int 1)

/-- What the content must not be: nested too deeply; or an object that passes
the checks before the one of `last_reason`, and whose `last_reason` is no string
or is accepted together with a line feed or with a version other than the
integer. -/
structure Harmless (L : JsonLimits) (content : List UInt8) : Prop where
  nesting : ∀ text, Utf8.decodeAscii content = some text →
    loads L.toFloat L.depth text.universalNewlines ≠ .error .recursionError
  reason : ∀ fields state version reason, IsObject L content fields →
    Candidate fields state version reason →
    ∃ r, reason = .str r ∧ (isReason r = true → version = .int 1 ∧ r.getLast? ≠ some 0x0a)

/-- The part of an object in failing closed. -/
theorem ofPyValue_closed_iff (fields : List (PyStr × PyValue)) :
    (∃ res, ofPyValue (.dict fields) = .ok res ∧ ∀ s, res = some s →
      Route.isRoute s.activeRoute = true ∧ isToken s.lastReason = true ∧ FiveKeys fields ∧
        PyValue.get (lit "schema_version") fields = some (.int 1)) ↔
    ∀ state version reason, Candidate fields state version reason →
      ∃ r, reason = .str r ∧ (isReason r = true → version = .int 1 ∧ r.getLast? ≠ some 0x0a) := by
  constructor
  · rintro ⟨res, hres, hclosed⟩ state version reason h
    rw [ofPyValue_candidate h] at hres
    cases reason with
    | str r =>
        refine ⟨r, rfl, fun hreason => ?_⟩
        rw [ofPyValues_known h.known, if_pos hreason, Except.ok.injEq] at hres
        obtain ⟨-, htoken, -, hone⟩ := hclosed _ hres.symm
        rw [h.has_version, Option.some.injEq] at hone
        exact ⟨hone, ((isToken_iff r).mp htoken).2⟩
    | none | bool | int | float | list | dict =>
        simp only [ofPyValues, h.known, Bool.not_true, Bool.false_eq_true, if_false] at hres
        contradiction
  · intro h
    by_cases hcandidate : ∃ state version reason, Candidate fields state version reason
    · obtain ⟨state, version, reason, hcand⟩ := hcandidate
      obtain ⟨r, rfl, hreason⟩ := h state version reason hcand
      rw [ofPyValue_candidate hcand, ofPyValues_known hcand.known]
      split
      · next haccepted =>
          obtain ⟨rfl, hlast⟩ := hreason haccepted
          refine ⟨_, rfl, ?_⟩
          rintro s hs
          rw [← Option.some.inj hs]
          exact ⟨hcand.known, (isToken_iff r).mpr ⟨haccepted, hlast⟩, hcand.keys,
            hcand.has_version⟩
      · exact ⟨none, rfl, by simp⟩
    · refine ⟨none, ofPyValue_rejects ?_, by simp⟩
      intro state version reason hcand
      exact hcandidate ⟨state, version, reason, hcand⟩

/-- The same for the text that was read. -/
theorem failsClosed_iff_of_text {L : JsonLimits} {content : List UInt8} {text : PyStr}
    (hsize : content.length ≤ Publication.maxStateBytes)
    (htext : Utf8.decodeAscii content = some text) :
    FailsClosed L content ↔
      loads L.toFloat L.depth text.universalNewlines ≠ .error .recursionError ∧
      ∀ fields state version reason,
        loads L.toFloat L.depth text.universalNewlines = .ok (.dict fields) →
        Candidate fields state version reason →
        ∃ r, reason = .str r ∧ (isReason r = true → version = .int 1 ∧ r.getLast? ≠ some 0x0a) := by
  have hquiet : readState L (.regular content) = .ok none → FailsClosed L content :=
    fun h => ⟨none, h, by simp⟩
  have hread : readState L (.regular content) = ofContent L content := by
    rw [readState, if_neg (Nat.not_lt.mpr hsize)]
  cases hload : loads L.toFloat L.depth text.universalNewlines with
  | error e =>
      rw [ofContent, htext] at hread
      simp only [hload] at hread
      cases e with
      | decodeError | valueError => exact iff_of_true (hquiet hread) ⟨by simp, by simp⟩
      | recursionError =>
          refine iff_of_false ?_ (by simp)
          rintro ⟨res, hres, -⟩
          rw [hread] at hres
          contradiction
      | outOfFuel => exact absurd hload (loads_ne_outOfFuel _ _ _)
  | ok data =>
      rw [ofContent, htext] at hread
      simp only [hload] at hread
      cases data with
      | dict fields =>
          have hobject : ∀ fields', IsObject L content fields' ↔ fields' = fields := by
            intro fields'
            constructor
            · rintro ⟨text', htext', hload'⟩
              rw [htext, Option.some.injEq] at htext'
              rw [← htext', hload] at hload'
              simpa using hload'.symm
            · rintro rfl
              exact ⟨text, htext, hload⟩
          rw [FailsClosed, hread]
          simp only [hobject, exists_eq_left, ne_eq, reduceCtorEq, not_false_eq_true, true_and,
            Except.ok.injEq, PyValue.dict.injEq]
          rw [ofPyValue_closed_iff]
          constructor
          · rintro h fields' state version reason rfl
            exact h state version reason
          · intro h state version reason
            exact h fields state version reason rfl
      | none | bool | int | float | str | list =>
          exact iff_of_true (hquiet hread) ⟨by simp, by simp⟩

/-- **Damaged files**: `read_state` fails closed exactly when the content is
harmless or too long to be read. -/
theorem read_fails_closed_iff (L : JsonLimits) (content : List UInt8) :
    FailsClosed L content ↔
      (content.length ≤ Publication.maxStateBytes → Harmless L content) := by
  by_cases hsize : content.length ≤ Publication.maxStateBytes
  · simp only [hsize, true_implies]
    cases htext : Utf8.decodeAscii content with
    | none =>
        have hread : readState L (.regular content) = .ok none := by
          rw [readState, if_neg (Nat.not_lt.mpr hsize), ofContent, htext]
        refine iff_of_true ⟨none, hread, by simp⟩ ⟨by simp [htext], ?_⟩
        rintro fields state version reason ⟨text, htext', -⟩
        rw [htext] at htext'
        contradiction
    | some text =>
        rw [failsClosed_iff_of_text hsize htext]
        constructor
        · rintro ⟨hnesting, hreason⟩
          refine ⟨?_, ?_⟩
          · intro text' htext'
            rw [htext, Option.some.injEq] at htext'
            rwa [← htext']
          · rintro fields state version reason ⟨text', htext', hload⟩
            rw [htext, Option.some.injEq] at htext'
            rw [← htext'] at hload
            exact hreason fields state version reason hload
        · intro h
          refine ⟨h.nesting text htext, ?_⟩
          intro fields state version reason hload
          exact h.reason fields state version reason ⟨text, htext, hload⟩
  · have hread : readState L (.regular content) = .ok none := by
      rw [readState, if_pos (Nat.not_le.mp hsize)]
    exact iff_of_true ⟨none, hread, by simp⟩ fun h => absurd h hsize

/-- The fields of a document with a `last_reason` that is no string. -/
def numericReason : List Field :=
  [ ⟨lit "active_route", 0x22 :: (lit "online" ++ [0x22]), .str (lit "online")⟩,
    ⟨lit "connection_in_progress", lit "false", .bool false⟩,
    ⟨lit "last_reason", [0x31], .int 1⟩,
    ⟨lit "schema_version", [0x31], .int 1⟩,
    ⟨lit "time_sync_required", lit "false", .bool false⟩ ]

theorem numericReason_text : 0x7b :: Field.write numericReason [] =
    lit ("\x7b\"active_route\":\"online\"," ++
      "\"connection_in_progress\":false,\"last_reason\":1,\"schema_version\":1," ++
      "\"time_sync_required\":false\x7d") := by
  rw [lit, String.toList_append, String.toList_append, List.map_append, List.map_append, ← lit,
    ← lit, ← lit, lit_ofList, lit_ofList, lit_ofList]
  decide

theorem numericReason_reads (toFloat : PyStr → PyFloat) (depth : Nat) :
    ∀ field ∈ numericReason, field.Reads (scanOnce toFloat depth) := by
  have honline : lit "online" = (lit "online").flatMap fun c => [c] := by decide
  intro field hfield
  simp only [numericReason, List.mem_cons, List.not_mem_nil, or_false] at hfield
  rcases hfield with rfl | rfl | rfl | rfl | rfl
  · rw [honline]
    exact Field.Reads.str toFloat depth (by decide) fun c hc =>
      escapes_plain (forall_of_all (p := fun c => isPlain c = true) (by decide) c hc) rfl
  · exact Field.Reads.bool toFloat depth (by decide) false
  · exact Field.Reads.one toFloat depth (by decide)
  · exact Field.Reads.one toFloat depth (by decide)
  · exact Field.Reads.bool toFloat depth (by decide) false

set_option maxRecDepth 2000 in
/-- A `last_reason` that is no string makes `re.match` raise. -/
theorem read_numeric_reason_raises :
    ¬ FailsClosed .default (Utf8.asciiBytes (lit ("\x7b\"active_route\":\"online\"," ++
      "\"connection_in_progress\":false,\"last_reason\":1,\"schema_version\":1," ++
      "\"time_sync_required\":false\x7d"))) := by
  rintro ⟨res, hres, -⟩
  have hread : readState .default (.regular (Utf8.asciiBytes
      (lit ("\x7b\"active_route\":\"online\"," ++
      "\"connection_in_progress\":false,\"last_reason\":1,\"schema_version\":1," ++
      "\"time_sync_required\":false\x7d")))) = .error .typeError := by
    have hload := @loads_write JsonLimits.default.toFloat 999 numericReason [] (by decide)
      (numericReason_reads _ _) rfl
    have hlines : PyStr.universalNewlines (0x7b :: Field.write numericReason []) =
        0x7b :: Field.write numericReason [] :=
      PyStr.universalNewlines_free (forall_of_all (by decide))
    have hsize : ¬ Publication.maxStateBytes <
        (Utf8.asciiBytes (0x7b :: Field.write numericReason [])).length := by
      rw [Utf8.asciiBytes, List.length_map]
      decide
    rw [← numericReason_text, readState, if_neg hsize, ofContent,
      Utf8.decodeAscii_asciiBytes (forall_of_all (by decide))]
    simp only [hlines]
    rw [show JsonLimits.default.depth = 999 + 1 from rfl, hload]
    rfl
  rw [hread] at hres
  cases hres

end RuntimeState

end SushidaOs
