import SushidaOs.Publish
import SushidaOs.Runtime.State
import SushidaOs.Wifi.Storage

/-!
# SushidaOs.Publication

The three files that are replaced through a temporary file: `setup.json`
(`persist_credentials`), the runtime state (`write_state`) and the token of
the setup page (`csrf_token`).

Here every system call counts, one by one, and any of them may fail.  What the
functions read before they write (`lstat`, the probe of the storage) is an
argument.
-/

namespace SushidaOs

open PyStr
open Crash (Triple)

namespace Publication

/-! ## setup.json -/

/-- The `try` body of `persist_credentials`; the directory is closed also when
it could not be synced. -/
def replaceConfig (F : FileEnv) (payload : List UInt8) : Script FileEvent Bool := do
  match ← F.writeStream payload with
  | false => pure false
  | true =>
      match ← F.run .replace with
      | false => pure false
      | true =>
          match ← F.run .openDirectory with
          | false => pure false
          | true =>
              let synced ← F.run .fsyncDirectory
              let closed ← F.run .closeDirectory
              pure (synced && closed)

/-- `persist_credentials`, with the storage as its probe finds it. -/
def persistCredentials (F : FileEnv) (uid : Nat) (view : StorageView) (ssid password : PyStr) :
    Script FileEvent (Except PyExc Unit) :=
  match view.ready uid with
  | .error e => pure (.error e)
  | .ok false => pure (.error .osError)
  | .ok true =>
      match (configText ssid password).encodeUtf8 with
      | .error e => pure (.error e)
      | .ok text =>
          let payload := text ++ [0x0a]
          if maxConfigBytes < payload.length then pure (.error .osError)
          else do
            let done ← F.withTemporary (replaceConfig F payload)
            pure (if done then .ok () else .error .osError)

/-- The content `persist_credentials` writes. -/
def configPayload (ssid password : PyStr) : List UInt8 :=
  (configText ssid password).flatMap CodePoint.utf8 ++ [0x0a]

/-! ## the runtime state -/

/-- What `lstat` says of the target. -/
inductive TargetStat where
  | missing
  | symlink
  | present
  | osError
  deriving DecidableEq, Repr

/-- `MAX_STATE_BYTES`. -/
def maxStateBytes : Nat := 4096

/-- The text of the state; there is no float in it. -/
def stateText (s : RuntimeState) : PyStr := Json.dumps (fun _ => []) s.document

/-- The content `write_state` writes; `json.dumps` answers ASCII. -/
def statePayload (s : RuntimeState) : List UInt8 := Utf8.asciiBytes (stateText s) ++ [0x0a]

/-- The `try` body of `write_state`. -/
def replaceState (F : FileEnv) (payload : List UInt8) : Script FileEvent Bool := do
  match ← F.writeStream payload with
  | false => pure false
  | true =>
      match ← F.run .chmod with
      | false => pure false
      | true => F.run .replace

/-- `write_state`; `directory` is whether `lstat` finds a real directory, `none`
when it raises. -/
def writeState (F : FileEnv) (directory : Option Bool) (target : TargetStat) (s : RuntimeState) :
    Script FileEvent (Except PyExc Unit) :=
  if !s.isValid then pure (.error .valueError)
  else match directory with
    | none | some false => pure (.error .osError)
    | some true =>
        if target = .symlink || target = .osError then pure (.error .osError)
        else if maxStateBytes < (statePayload s).length then pure (.error .osError)
        else do
          let done ← F.withTemporary (replaceState F (statePayload s))
          pure (if done then .ok () else .error .osError)

/-! ## the token of the setup page -/

/-- What `_read_csrf_token` finds. -/
inductive TokenFile where
  | missing
  | osError
  /-- A file; `content` is `none` when it cannot be read. -/
  | found (isRegular : Bool) (mode uid size : Nat) (content : Option (List UInt8))
  deriving DecidableEq, Repr

inductive TokenExc where
  | fileNotFound
  | osError
  | runtimeError
  deriving DecidableEq, Repr

/-- A character of a token. -/
def isTokenChar (c : CodePoint) : Bool :=
  (0x41 ≤ c.val && c.val ≤ 0x5a) || (0x61 ≤ c.val && c.val ≤ 0x7a) ||
    (0x30 ≤ c.val && c.val ≤ 0x39) || c = 0x2d || c = 0x5f

/-- `_read_csrf_token`. -/
def readCsrfToken (uid : Nat) : TokenFile → Except TokenExc PyStr
  | .missing => .error .fileNotFound
  | .osError => .error .osError
  | .found isRegular mode owner size content =>
      if !isRegular || mode ≠ 0o600 then .error .runtimeError
      else if owner ≠ uid || !(32 ≤ size && size ≤ 128) then .error .runtimeError
      else match content.bind Utf8.decodeAscii with
        | none => .error .runtimeError
        | some text =>
            let token := text.universalNewlines.strip
            if !(32 ≤ token.length && token.length ≤ 128) || token.any fun c => !isTokenChar c then
              .error .runtimeError
            else .ok token

/-- What `csrf_token` meets: the token it has kept, the file and the directory
at each moment, and the random token. -/
structure TokenWorld where
  uid : Nat
  cache : Option PyStr
  file : List FileEvent → TokenFile
  /-- `directory.is_dir() and not directory.is_symlink()`. -/
  directory : Bool
  fresh : PyStr

/-- The `try` body of `csrf_token`. -/
def replaceToken (F : FileEnv) (payload : List UInt8) : Script FileEvent Bool := do
  match ← F.writeStream payload with
  | false => pure false
  | true => F.run .replace

/-- The content `csrf_token` writes; the random token is ASCII. -/
def tokenPayload (token : PyStr) : List UInt8 := Utf8.asciiBytes (token ++ [0x0a])

/-- `csrf_token`. -/
def csrfToken (F : FileEnv) (T : TokenWorld) : Script FileEvent (Except TokenExc PyStr) :=
  match T.cache with
  | some token => pure (.ok token)
  | none => do
      match ← (fun journal => (readCsrfToken T.uid (T.file journal), journal)) with
      | .ok token => pure (.ok token)
      | .error .osError => pure (.error .osError)
      | .error .runtimeError => pure (.error .runtimeError)
      | .error .fileNotFound =>
          if !T.directory then pure (.error .runtimeError)
          else
            match ← F.withTemporary (replaceToken F (tokenPayload T.fresh)) with
            | false => pure (.error .osError)
            | true => fun journal => (readCsrfToken T.uid (T.file journal), journal)

/-! ## old or new -/

/-- Whatever fails, and wherever the call is stopped, a reader finds the old
content or the whole of the new one; and when the call ends and `unlink` works,
its temporary file is gone. -/
def Atomically {α : Type} (F : FileEnv) (new : List UInt8) (p : Script FileEvent α) : Prop :=
  ∀ old : OldTarget,
    (∀ u, u <+: p.run.2 → Whole old new (u.foldl Disk.step old.disk)) ∧
      (F.UnlinkWorks → (p.run.2.foldl Disk.step old.disk).temporary = false)

section Atomic

variable {α : Type} {F : FileEnv} {old : OldTarget} {new : List UInt8}

/-- A disk on which the call has not begun. -/
def Untouched (old : OldTarget) (d : Disk) : Prop := Unpublished old d ∧ d.temporary = false

/-- The call leaves a whole target, and no temporary file. -/
def Ends (F : FileEnv) (old : OldTarget) (new : List UInt8) (d : Disk) : Prop :=
  (Unpublished old d ∨ Published old new d) ∧ (F.UnlinkWorks → d.temporary = false)

theorem Untouched.ends {d : Disk} (h : Untouched old d) : Ends F old new d :=
  ⟨.inl h.1, fun _ => h.2⟩

/-- A publication that ends well on every disk is atomic. -/
theorem atomically_of_triple {p : Script FileEvent α}
    (h : ∀ old, Triple (publishing old new) (Untouched old) p fun _ => Ends F old new) :
    Atomically F new p := by
  intro old
  obtain ⟨hsafe, hends⟩ := (h old).run ⟨⟨rfl, rfl⟩, rfl⟩
  exact ⟨hsafe, hends.2⟩

/-- A call that raises before its first system call. -/
theorem pure_ends (a : α) :
    Triple (publishing old new) (Untouched old) (pure a) fun _ => Ends F old new :=
  Triple.pure (fun _ h => h.1.whole) fun _ h => h.ends

/-- The target is old or new, whatever the temporary name. -/
def Settled (old : OldTarget) (new : List UInt8) (d : Disk) : Prop :=
  Unpublished old d ∨ Published old new d

theorem Settled.unlinked {d : Disk} (h : Settled old new d) :
    Settled old new { d with temporary := false } :=
  h.imp (fun h => ⟨h.target, h.older⟩) fun h => ⟨h.own, h.target, h.older, rfl⟩

/-- The end of a call after its temporary file. -/
theorem withTemporary_ends {body : Script FileEvent Bool}
    (hbody : Triple (publishing old new) (fun d => Unpublished old d ∧ d.own.data = []) body
      fun _ => Settled old new) :
    Triple (publishing old new) (Untouched old) (F.withTemporary body) fun _ => Ends F old new := by
  refine (withTemporary_triple F hbody (fun _ _ h => whole_of_either h)
    fun _ _ h => h.unlinked).mono (fun _ h => h) ?_
  rintro ok d ⟨hgone, hleft | ⟨done, hsettled, -⟩⟩
  · exact ⟨.inl hleft.2, hgone⟩
  · exact ⟨hsettled, hgone⟩

/-- Whatever happens the target is whole. -/
theorem Ends.whole {d : Disk} (h : Ends F old new d) : Whole old new d := whole_of_either h.1

/-- The target is new if and only if the call was told that it succeeded. -/
def Told (old : OldTarget) (new : List UInt8) (ok : Bool) (d : Disk) : Prop :=
  if ok then Published old new d else Unpublished old d

theorem Told.settled {ok : Bool} {d : Disk} (h : Told old new ok d) : Settled old new d := by
  cases ok with
  | false => exact .inl h
  | true => exact .inr h

theorem Told.unlinked {ok : Bool} {d : Disk} (h : Told old new ok d) :
    Told old new ok { d with temporary := false } := by
  cases ok with
  | false => exact ⟨h.target, h.older⟩
  | true => exact ⟨h.own, h.target, h.older, rfl⟩

variable (F)

/-- `_replace_config` settles the target. -/
theorem replaceConfig_settled (payload : List UInt8) :
    Triple (publishing old payload) (fun d => Unpublished old d ∧ d.own.data = [])
      (replaceConfig F payload) fun _ => Settled old payload := by
  refine Triple.bind (writeStream_unpublished F payload) fun written => ?_
  cases written with
  | false => exact Triple.pure (fun d h => h.1.whole) fun d h => .inl h.1
  | true =>
      refine Triple.bind ((run_replace F).mono (fun d h => ⟨h.1, h.2 rfl⟩) fun _ _ h => h)
        fun replaced => ?_
      cases replaced with
      | false => exact Triple.pure (fun d h => h.whole) fun d h => .inl h
      | true =>
          have hpublished : ∀ {call : FileCall}, call.quiet = true →
              Triple (publishing old payload) (Published old payload) (F.run call)
                fun _ => Published old payload :=
            fun hcall => run_quiet F hcall fun d h => h.whole
          refine Triple.bind (hpublished rfl) fun opened => ?_
          cases opened with
          | false => exact Triple.pure (fun d h => h.whole) fun d h => .inr h
          | true =>
              refine Triple.bind (run_fsyncDirectory F) fun synced => ?_
              refine Triple.bind (hpublished rfl) fun closed => ?_
              exact Triple.pure (fun d h => h.whole) fun d h => .inr h

/-- `persist_credentials`, from an untouched disk. -/
theorem persistCredentials_ends (uid : Nat) (view : StorageView) (ssid password : PyStr) :
    Triple (publishing old (configPayload ssid password)) (Untouched old)
      (persistCredentials F uid view ssid password)
      fun _ => Ends F old (configPayload ssid password) := by
  unfold persistCredentials
  split
  · exact pure_ends _
  · exact pure_ends _
  split
  · exact pure_ends _
  · next text htext =>
      have hpayload : text ++ [0x0a] = configPayload ssid password := by
        rw [encodeUtf8_eq (encodable_of_encodeUtf8 htext), Except.ok.injEq] at htext
        rw [configPayload, htext]
      simp only
      rw [hpayload]
      split
      · exact pure_ends _
      · refine Triple.bind (withTemporary_ends (replaceConfig_settled F _)) fun done => ?_
        exact Triple.pure (fun d h => h.whole) fun d h => h

/-- `write_state` fails only before the replacement. -/
theorem replaceState_told (payload : List UInt8) :
    Triple (publishing old payload) (fun d => Unpublished old d ∧ d.own.data = [])
      (replaceState F payload) (Told old payload) := by
  have hfailed : ∀ {P : Disk → Prop}, (∀ d, P d → Unpublished old d) →
      Triple (publishing old payload) P (pure false) (Told old payload) :=
    fun hP => Triple.pure (fun d h => (hP d h).whole) hP
  refine Triple.bind (writeStream_unpublished F payload) fun written => ?_
  cases written with
  | false => exact hfailed fun d h => h.1
  | true =>
      have hchmod : Triple (publishing old payload)
          (fun d => Unpublished old d ∧ d.own = ⟨payload, true⟩) (F.run .chmod)
          fun _ d => Unpublished old d ∧ d.own = ⟨payload, true⟩ :=
        run_quiet F rfl fun d h => h.1.whole
      refine Triple.bind (hchmod.mono (fun d h => ⟨h.1, h.2 rfl⟩) fun _ _ h => h)
        fun changed => ?_
      cases changed with
      | false => exact hfailed fun d h => h.1
      | true => exact run_replace F

/-- `write_state` returns with the new state, or raises and leaves the old one. -/
theorem writeState_triple (directory : Option Bool) (target : TargetStat) (s : RuntimeState) :
    Triple (publishing old (statePayload s)) (Untouched old) (writeState F directory target s)
      fun res d => Ends F old (statePayload s) d ∧
        (res = .ok () → s.isValid = true ∧ Published old (statePayload s) d) ∧
        (∀ e, res = .error e → F.UnlinkMissing old → Unpublished old d) := by
  have hraises : ∀ e, Triple (publishing old (statePayload s)) (Untouched old)
      (pure (.error e) : Script FileEvent (Except PyExc Unit))
      fun res d => Ends F old (statePayload s) d ∧
        (res = .ok () → s.isValid = true ∧ Published old (statePayload s) d) ∧
        (∀ e, res = .error e → F.UnlinkMissing old → Unpublished old d) :=
    fun e => Triple.pure (fun d h => h.1.whole) fun d h => ⟨h.ends, by simp, fun _ _ _ => h.1⟩
  unfold writeState
  split
  · exact hraises _
  next hvalid =>
  split
  · exact hraises _
  · exact hraises _
  split
  · exact hraises _
  split
  · exact hraises _
  · have hcall := withTemporary_triple F (replaceState_told F (statePayload s))
      (fun _ d h => whole_of_either h.settled) fun _ d (h : Told old _ _ d) => h.unlinked
    refine Triple.bind hcall fun done => Triple.pure ?_ ?_
    · rintro d ⟨-, hleft | ⟨told, h, -⟩⟩
      · exact hleft.2.whole
      · exact whole_of_either h.settled
    · rintro d ⟨hgone, hleft | ⟨told, h, hdone, hmissing⟩⟩
      · refine ⟨⟨.inl hleft.2, hgone⟩, ?_, fun _ _ _ => hleft.2⟩
        rw [hleft.1]
        simp
      · refine ⟨⟨h.settled, hgone⟩, ?_, ?_⟩
        · intro hok
          cases done with
          | false => simp at hok
          | true =>
              rw [hdone rfl] at h
              exact ⟨by simpa using hvalid, h⟩
        · intro e he hunlink
          cases done with
          | true => simp at he
          | false =>
              cases told with
              | false => exact h
              | true =>
                  -- a file that was replaced has no temporary name left to unlink
                  have hleft := (hmissing hunlink rfl).resolve_left (by simp)
                  rw [h.temporary] at hleft
                  contradiction

/-- The token file is settled in the same way. -/
theorem replaceToken_settled (payload : List UInt8) :
    Triple (publishing old payload) (fun d => Unpublished old d ∧ d.own.data = [])
      (replaceToken F payload) fun _ => Settled old payload := by
  refine Triple.bind (writeStream_unpublished F payload) fun written => ?_
  cases written with
  | false => exact Triple.pure (fun d h => h.1.whole) fun d h => .inl h.1
  | true =>
      exact (run_replace F).mono (fun d h => ⟨h.1, h.2 rfl⟩) fun ok d (h : Told _ _ ok d) =>
        h.settled

/-- `csrf_token`, from an untouched disk. -/
theorem csrfToken_ends (T : TokenWorld) :
    Triple (publishing old (tokenPayload T.fresh)) (Untouched old) (csrfToken F T)
      fun _ => Ends F old (tokenPayload T.fresh) := by
  unfold csrfToken
  split
  · exact pure_ends _
  · refine Triple.bind (Triple.look fun d h => h.1.whole) fun found => ?_
    split
    · exact pure_ends _
    · exact pure_ends _
    · exact pure_ends _
    split
    · exact pure_ends _
    · refine Triple.bind (withTemporary_ends (replaceToken_settled F _)) fun done => ?_
      cases done with
      | false => exact Triple.pure (fun d h => h.whole) fun d h => h
      | true => exact Triple.look fun d h => h.whole

/-- **Atomic publication** of the three files. -/
theorem publication_atomic :
    (∀ uid view ssid password, Atomically F (configPayload ssid password)
      (persistCredentials F uid view ssid password)) ∧
    (∀ directory target s, Atomically F (statePayload s) (writeState F directory target s)) ∧
    (∀ T : TokenWorld, Atomically F (tokenPayload T.fresh) (csrfToken F T)) := by
  refine ⟨fun uid view ssid password => ?_, fun directory target s => ?_, fun T => ?_⟩
  · exact atomically_of_triple fun old => persistCredentials_ends F uid view ssid password
  · exact atomically_of_triple fun old =>
      (writeState_triple F directory target s).mono (fun _ h => h) fun _ _ h => h.1
  · exact atomically_of_triple fun old => csrfToken_ends F T

end Atomic

end Publication

end SushidaOs
