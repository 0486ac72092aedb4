import SushidaOs.Json
import SushidaOs.Lines
import SushidaOs.Runtime.Routes

/-!
# SushidaOs.Runtime.State

The route state protocol (`sushida_os/runtime/runtime_state.py`).

The file is seen as `read_state` sees it after `json.loads`: nothing it can
use, or a document.  `main` is cut at its one file access of each kind: a
`Request` reads the state, which gives a `Plan`, and the plan may replace the
file.  That the two are apart is what the interleavings of
`SushidaOs.Runtime.Interleave` are about.
-/

namespace SushidaOs

/-- `RuntimeState`. -/
structure RuntimeState where
  activeRoute : PyStr
  timeSyncRequired : Bool
  connectionInProgress : Bool
  lastReason : PyStr
  deriving DecidableEq, Repr

/-- The uncaught `TypeError` of `re.match` on something that is no string. -/
inductive TypeErr where
  | typeError
  deriving DecidableEq, Repr

/-- The state file. -/
inductive StateFile where
  /-- Missing, not a regular file, too large, not ASCII or not JSON. -/
  | unusable
  | document (data : Json)
  deriving Repr

namespace RuntimeState

/-! ## validation -/

/-- `[a-z]`. -/
def isLower (c : CodePoint) : Bool := 0x61 ≤ c.val && c.val ≤ 0x7a

/-- `[a-z0-9-]`. -/
def isTokenChar (c : CodePoint) : Bool :=
  isLower c || (0x30 ≤ c.val && c.val ≤ 0x39) || c = 0x2d

/-- `_REASON_PATTERN.match`: the `$` also matches before a line feed at the
end. -/
def isReason : PyStr → Bool
  | [] => false
  | c :: cs =>
      let body := if cs.getLast? = some 0x0a then cs.dropLast else cs
      isLower c && body.all isTokenChar && body.length ≤ 63

/-- `_validate` on a state with fields of the right types. -/
def isValid (s : RuntimeState) : Bool := Route.isRoute s.activeRoute && isReason s.lastReason

/-! ## reading and writing -/

/-- The object that `write_state` dumps, with sorted keys. -/
def document (s : RuntimeState) : Json :=
  .obj [(.lit "active_route", .str s.activeRoute),
    (.lit "connection_in_progress", .bool s.connectionInProgress),
    (.lit "last_reason", .str s.lastReason), (.lit "schema_version", .int 1),
    (.lit "time_sync_required", .bool s.timeSyncRequired)]

/-- `expected_keys`. -/
def expectedKeys : List PyStr :=
  ["schema_version", "active_route", "time_sync_required", "connection_in_progress",
    "last_reason"].map .lit

/-- `_validate` on the values of a document: the checks in order, where a
`last_reason` that is no string raises a `TypeError`. -/
def ofValues (route timeSync progress reason : Json) : Except TypeErr (Option RuntimeState) :=
  match route with
  | .str route =>
      if !Route.isRoute route then .ok none
      else match timeSync, progress with
        | .bool timeSync, .bool progress =>
            match reason with
            | .str reason =>
                if isReason reason then .ok (some ⟨route, timeSync, progress, reason⟩)
                else .ok none
            | _ => .error .typeError
        | _, _ => .ok none
  | _ => .ok none

/-- `read_state`. -/
def read : StateFile → Except TypeErr (Option RuntimeState)
  | .document (.obj fields) =>
      if !fields.all fun field => expectedKeys.contains field.1 then .ok none
      else match Json.lookup (.lit "schema_version") fields,
          Json.lookup (.lit "active_route") fields,
          Json.lookup (.lit "time_sync_required") fields,
          Json.lookup (.lit "connection_in_progress") fields,
          Json.lookup (.lit "last_reason") fields with
        | some version, some route, some timeSync, some progress, some reason =>
            if !version.eqInt 1 then .ok none else ofValues route timeSync progress reason
        | _, _, _, _, _ => .ok none
  | _ => .ok none

/-- A state that was read is valid. -/
theorem isValid_of_read {f : StateFile} {s : RuntimeState} (h : read f = .ok (some s)) :
    s.isValid = true := by
  have hvalues : ∀ route timeSync progress reason : Json,
      ofValues route timeSync progress reason = .ok (some s) → s.isValid = true := by
    intro route timeSync progress reason h
    unfold ofValues at h
    split at h
    · split at h
      · simp at h
      · next hroute =>
          split at h
          · split at h
            · split at h
              · next hreason =>
                  simp only [Except.ok.injEq, Option.some.injEq] at h
                  rw [← h]
                  simpa [isValid, hreason] using hroute
              · simp at h
            · simp at h
          · simp at h
    · simp at h
  unfold read at h
  split at h
  · split at h
    · simp at h
    · split at h
      · split at h
        · simp at h
        · exact hvalues _ _ _ _ h
      · simp at h
  · simp at h

/-- **Round trip**: what was written is read. -/
theorem read_document {s : RuntimeState} (h : s.isValid = true) :
    read (.document s.document) = .ok (some s) := by
  have hread : read (.document s.document) = ofValues (.str s.activeRoute)
      (.bool s.timeSyncRequired) (.bool s.connectionInProgress) (.str s.lastReason) := rfl
  simp only [isValid, Bool.and_eq_true] at h
  rw [hread, ofValues]
  simp only [h.1, h.2, Bool.not_true, Bool.false_eq_true, if_false, if_true]

end RuntimeState

/-! ## the command line -/

namespace StateCli

/-- `PROD_RUNTIME_DIR`. -/
def prodRuntimeDir : PyStr := .lit "/run/sushida-os"

/-- The parts of a `Path`: repeated slashes and `.` do not count.  The flags say
that the path is absolute, and that it starts with exactly two slashes. -/
def pathParts (s : PyStr) : Bool × Bool × List PyStr :=
  (s.head? == some 0x2f,
    [0x2f, 0x2f].isPrefixOf s && !List.isPrefixOf [0x2f, 0x2f, 0x2f] s,
    (s.splitSep 0x2f).filter fun part => !part.isEmpty && part != [0x2e])

/-- The values of `--print`. -/
inductive Field where
  | activeRoute
  | timeSyncRequired
  deriving DecidableEq, Repr

/-- The locals of `main` that the loop sets. -/
structure Args where
  directory : Option PyStr := none
  route : PyStr := []
  timeSyncRequired : Bool := false
  connectionInProgress : Bool := false
  reason : PyStr := []
  printField : Option Field := none
  clearTimeSync : Bool := false
  setProgress : Option Bool := none
  writeFlagsSeen : Bool := false
  deriving DecidableEq, Repr

/-- `_parse_bool_flag`. -/
def parseBoolFlag (value : PyStr) : Option Bool :=
  if value = .lit "0" then some false
  else if value = .lit "1" then some true
  else none

/-- The values `--print` accepts. -/
def parseField (value : PyStr) : Option Field :=
  if value = .lit "active-route" then some .activeRoute
  else if value = .lit "time-sync-required" then some .timeSyncRequired
  else none

/-- The body of the loop for a flag with a value; `none` is `return 2`. -/
def setFlag (args : Args) (flag value : PyStr) : Option Args :=
  if flag = .lit "--directory" then some { args with directory := some value }
  else if flag = .lit "--print" then
    (parseField value).map fun field => { args with printField := some field }
  else if flag = .lit "--set-connection-in-progress" then
    (parseBoolFlag value).map fun v => { args with setProgress := some v }
  else if flag = .lit "--route" then some { args with writeFlagsSeen := true, route := value }
  else if flag = .lit "--reason" then some { args with writeFlagsSeen := true, reason := value }
  else if flag = .lit "--time-sync-required" then
    (parseBoolFlag value).map fun v => { args with writeFlagsSeen := true, timeSyncRequired := v }
  else if flag = .lit "--connection-in-progress" then
    (parseBoolFlag value).map fun v =>
      { args with writeFlagsSeen := true, connectionInProgress := v }
  else none

/-- The loop of `main`; an unknown flag is refused also when no value follows
it. -/
def parseArgs (args : Args) : List PyStr → Option Args
  | [] => some args
  | [flag] =>
      if flag = .lit "--clear-time-sync" then some { args with clearTimeSync := true } else none
  | flag :: value :: rest =>
      if flag = .lit "--clear-time-sync" then
        parseArgs { args with clearTimeSync := true } (value :: rest)
      else match setFlag args flag value with
        | none => none
        | some args => parseArgs args rest

/-- What `main` was asked for. -/
inductive Request where
  | print (field : Field)
  | clearTimeSync
  | setProgress (v : Bool)
  | write (s : RuntimeState)
  deriving DecidableEq, Repr

/-- The modes that were asked for. -/
def Args.modes (args : Args) : Nat :=
  args.printField.isSome.toNat + args.clearTimeSync.toNat + args.setProgress.isSome.toNat +
    args.writeFlagsSeen.toNat

/-- `main` up to its first file access; `none` is `return 2`. -/
def request (testMode : Bool) (argv : List PyStr) : Option Request :=
  match parseArgs {} argv with
  | none => none
  | some args =>
      match args.directory with
      | none => none
      | some directory =>
          if 1 < args.modes then none
          else if pathParts directory ≠ pathParts prodRuntimeDir ∧ testMode = false then none
          else match args.printField with
            | some field => some (.print field)
            | none =>
                if args.clearTimeSync then some .clearTimeSync
                else match args.setProgress with
                  | some v => some (.setProgress v)
                  | none => some (.write ⟨args.route, args.timeSyncRequired,
                      args.connectionInProgress, args.reason⟩)

/-- What `main` does after reading: exit, or call `write_state`. -/
inductive Plan where
  | exit (result : Completed)
  | publish (s : RuntimeState)
  deriving DecidableEq, Repr

/-- The value `--print` writes. -/
def Field.text (s : RuntimeState) : Field → PyStr
  | activeRoute => s.activeRoute
  | timeSyncRequired => if s.timeSyncRequired then .lit "1" else .lit "0"

/-- `main` after the answer of `read_state`; an uncaught exception ends the
process with status 1.  The write mode does not read. -/
def Request.plan : Request → Except TypeErr (Option RuntimeState) → Plan
  | write s, _ => .publish s
  | _, .error _ => .exit ⟨1, []⟩
  | _, .ok none => .exit ⟨1, []⟩
  | print field, .ok (some s) => .exit ⟨0, Sh.printLine (field.text s)⟩
  | clearTimeSync, .ok (some s) => .publish { s with timeSyncRequired := false }
  | setProgress v, .ok (some s) =>
      if s.connectionInProgress = v then .exit ⟨0, []⟩
      else .publish { s with connectionInProgress := v }

/-- The rest of `main`; `ioOk` is false when `write_state` raises an `OSError`. -/
def Plan.run (ioOk : Bool) (file : StateFile) : Plan → Completed × StateFile
  | exit result => (result, file)
  | publish s => if s.isValid && ioOk then (⟨0, []⟩, .document s.document) else (⟨1, []⟩, file)

/-- `main`. -/
def main (testMode ioOk : Bool) (argv : List PyStr) (file : StateFile) : Completed × StateFile :=
  match request testMode argv with
  | none => (⟨2, []⟩, file)
  | some r => (r.plan (RuntimeState.read file)).run ioOk file

end StateCli

end SushidaOs
