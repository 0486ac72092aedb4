import SushidaOs.Crash

/-!
# SushidaOs.Publish

A file replaced through a temporary file: the calls, what they do to the disk,
and what a reader of the target finds.

The call owns one file, the one it creates under the temporary name; a write
goes to that file, whatever name it has by then.  A power failure may bring
back any entry the target's name had since its directory was last synced, and
replaces the content of a file that was not synced by anything.

`Whole` says that a reader, now or after a power failure, finds what could be
found before the call or the new content.  It is the crash condition of the
triples below, which describe the parts that such a call is made of.
-/

namespace SushidaOs

open Crash (Triple)

/-! ## the disk -/

/-- A file: its bytes, and whether they have been synced. -/
structure FileData where
  data : List UInt8
  synced : Bool
  deriving DecidableEq, Repr

/-- What a name refers to: nothing, a file that was there before, or the file
of this call. -/
inductive Link where
  | absent
  | other (file : FileData)
  | own
  deriving DecidableEq, Repr

/-- The disk as the call sees it. -/
structure Disk where
  /-- The file this call creates. -/
  own : FileData
  target : Link
  /-- Entries of the target's name that a power failure may bring back. -/
  older : List Link
  /-- The temporary name refers to the file of this call. -/
  temporary : Bool
  deriving DecidableEq, Repr

/-- The system calls, in the source's words; writing is buffered, so bytes reach
the file in `write`, `flush` and `close`. -/
inductive FileCall where
  /-- `os.open(temporary, os.O_WRONLY | os.O_CREAT | os.O_EXCL)`. -/
  | openTemporary
  | fdopen
  | write
  | flush
  | fsync
  | close
  | chmod
  /-- `os.replace(temporary, target)`. -/
  | replace
  | openDirectory
  | fsyncDirectory
  | closeDirectory
  /-- `temporary.unlink()`, a missing file being no error. -/
  | unlink
  deriving DecidableEq, Repr

/-- A call, whether it succeeded, and the bytes that reached the file. -/
structure FileEvent where
  call : FileCall
  ok : Bool
  chunk : List UInt8 := []
  deriving DecidableEq, Repr

namespace Link

/-- The file a name refers to. -/
def file (mine : FileData) : Link → Option FileData
  | absent => none
  | other file => some file
  | own => some mine

/-- A name that refers to a file of before. -/
def ofOld : Option FileData → Link
  | none => absent
  | some file => other file

@[simp] theorem file_ofOld (mine : FileData) (old : Option FileData) :
    (ofOld old).file mine = old := by
  cases old <;> rfl

theorem ofOld_ne_own (old : Option FileData) : ofOld old ≠ own := by
  cases old <;> simp [ofOld]

end Link

namespace Disk

/-- The effect of a call. -/
def step (d : Disk) (e : FileEvent) : Disk :=
  match e.call with
  | .openTemporary => if e.ok then { d with own := ⟨[], false⟩, temporary := true } else d
  | .write | .flush | .close =>
      { d with own := ⟨d.own.data ++ e.chunk, d.own.synced && e.chunk.isEmpty⟩ }
  | .fsync => if e.ok then { d with own := ⟨d.own.data, true⟩ } else d
  | .replace =>
      if e.ok then { d with target := .own, older := d.target :: d.older, temporary := false }
      else d
  | .fsyncDirectory => if e.ok then { d with older := [] } else d
  | .unlink => if e.ok then { d with temporary := false } else d
  | .fdopen | .chmod | .openDirectory | .closeDirectory => d

/-- What a reader of the target finds. -/
def read (d : Disk) : Option (List UInt8) := (d.target.file d.own).map FileData.data

/-- What may be left of a file after a power failure. -/
def Leaves : Option FileData → Option (List UInt8) → Prop
  | none, found => found = none
  | some file, found => ∃ data, found = some data ∧ (file.synced = true → data = file.data)

/-- What a reader of the target may find after a power failure. -/
def Recovers (d : Disk) (found : Option (List UInt8)) : Prop :=
  ∃ link ∈ d.target :: d.older, Leaves (link.file d.own) found

end Disk

/-- The target before the call, and what else a power failure could bring
back. -/
structure OldTarget where
  target : Option FileData
  older : List (Option FileData)
  deriving DecidableEq, Repr

/-- The disk before the call. -/
def OldTarget.disk (old : OldTarget) : Disk where
  own := ⟨[], false⟩
  target := .ofOld old.target
  older := old.older.map .ofOld
  temporary := false

/-- **Old or new**: whatever can be found could be found before the call, or is
the whole new content. -/
structure Whole (old : OldTarget) (new : List UInt8) (d : Disk) : Prop where
  read : d.read = old.disk.read ∨ d.read = some new
  recovers : ∀ found, d.Recovers found → old.disk.Recovers found ∨ found = some new

/-! ## the calls -/

/-- The operating system: which calls succeed, and how many bytes reach the
file in a call that writes. -/
structure FileEnv where
  ok : List FileEvent → FileCall → Bool
  count : List FileEvent → FileCall → Nat

namespace FileEnv

/-- A call that writes nothing; `false` is an `OSError`. -/
def run (F : FileEnv) (call : FileCall) : Script FileEvent Bool :=
  Script.ask (fun journal => F.ok journal call) fun ok => ⟨call, ok, []⟩

/-- The part of the buffer that reaches the file: `write` may keep some of it,
the others write all of it unless they fail. -/
def sent (call : FileCall) (buffer : List UInt8) (answer : Bool × Nat) : List UInt8 :=
  if answer.1 && call != .write then buffer else buffer.take answer.2

/-- A call that writes from a buffer, and what is left in it. -/
def put (F : FileEnv) (call : FileCall) (buffer : List UInt8) :
    Script FileEvent (Bool × List UInt8) := do
  let answer ← Script.ask (fun journal => (F.ok journal call, F.count journal call))
    fun answer => ⟨call, answer.1, sent call buffer answer⟩
  pure (answer.1, buffer.drop (sent call buffer answer).length)

/-- `stream.write(payload)`, `stream.flush()`, `os.fsync(stream.fileno())`. -/
def streamBody (F : FileEnv) (payload : List UInt8) : Script FileEvent (Bool × List UInt8) := do
  match ← F.put .write payload with
  | (false, rest) => pure (false, rest)
  | (true, rest) =>
      match ← F.put .flush rest with
      | (false, rest) => pure (false, rest)
      | (true, rest) =>
          let synced ← F.run .fsync
          pure (synced, rest)

/-- `with os.fdopen(descriptor, closefd=True) as stream` around the body; the
stream is closed also after a failure. -/
def writeStream (F : FileEnv) (payload : List UInt8) : Script FileEvent Bool := do
  match ← F.run .fdopen with
  | false => pure false
  | true =>
      let (written, rest) ← F.streamBody payload
      let (closed, _) ← F.put .close rest
      pure (written && closed)

/-- `descriptor = os.open(temporary, ...)` and the `try` statement that unlinks
the temporary file in its `finally`. -/
def withTemporary (F : FileEnv) (body : Script FileEvent Bool) : Script FileEvent Bool := do
  match ← F.run .openTemporary with
  | false => pure false
  | true =>
      let done ← body
      let unlinked ← F.run .unlink
      pure (done && unlinked)

end FileEnv

/-! ## before and after the replacement -/

/-- The target has not been touched. -/
structure Unpublished (old : OldTarget) (d : Disk) : Prop where
  target : d.target = old.disk.target
  older : d.older = old.disk.older

/-- The target is the file of this call, complete and synced. -/
structure Published (old : OldTarget) (new : List UInt8) (d : Disk) : Prop where
  own : d.own = ⟨new, true⟩
  target : d.target = .own
  older : ∀ link ∈ d.older, link ∈ old.disk.target :: old.disk.older
  temporary : d.temporary = false

/-- The call, with `Whole` as the crash condition. -/
def publishing (old : OldTarget) (new : List UInt8) : Crash.Safety FileEvent Disk where
  start := old.disk
  step := Disk.step
  safe := Whole old new

section Stages

variable {old : OldTarget} {new : List UInt8} {d : Disk}

/-- A file of before does not change with the file of this call. -/
theorem file_of_mem_old {link : Link} (h : link ∈ old.disk.target :: old.disk.older)
    (mine mine' : FileData) : link.file mine = link.file mine' := by
  cases List.mem_cons.mp h with
  | inl htarget =>
      rw [htarget]
      simp [OldTarget.disk]
  | inr holder =>
      obtain ⟨file, -, rfl⟩ := List.mem_map.mp holder
      simp

theorem Unpublished.whole (h : Unpublished old d) : Whole old new d where
  read := by
    left
    rw [Disk.read, h.target, file_of_mem_old List.mem_cons_self d.own old.disk.own]
    rfl
  recovers := by
    rintro found ⟨link, hlink, hleaves⟩
    rw [h.target, h.older] at hlink
    left
    refine ⟨link, hlink, ?_⟩
    rwa [file_of_mem_old hlink old.disk.own d.own]

theorem Published.whole (h : Published old new d) : Whole old new d where
  read := by
    right
    rw [Disk.read, h.target, h.own]
    rfl
  recovers := by
    rintro found ⟨link, hlink, hleaves⟩
    cases List.mem_cons.mp hlink with
    | inl htarget =>
        right
        rw [htarget, h.target, h.own] at hleaves
        obtain ⟨data, hdata, hsynced⟩ := hleaves
        rw [hdata, hsynced rfl]
    | inr holder =>
        left
        have hold := h.older link holder
        refine ⟨link, hold, ?_⟩
        rwa [file_of_mem_old hold old.disk.own d.own]

/-- The target is old or new. -/
theorem whole_of_either (h : Unpublished old d ∨ Published old new d) : Whole old new d :=
  h.elim Unpublished.whole Published.whole

end Stages

/-! ## the parts of a call -/

/-- The calls that change neither names nor contents. -/
def FileCall.quiet : FileCall → Bool
  | fdopen | chmod | openDirectory | closeDirectory => true
  | _ => false

section Parts

variable {old : OldTarget} {new : List UInt8} (F : FileEnv)

/-- A quiet call keeps whatever was true of the disk. -/
theorem run_quiet {P : Disk → Prop} {call : FileCall} (hcall : call.quiet = true)
    (hwhole : ∀ d, P d → Whole old new d) :
    Triple (publishing old new) P (F.run call) fun _ => P := by
  refine Triple.ask hwhole ?_
  intro d ok h
  have hstep : (publishing old new).step d ⟨call, ok, []⟩ = d := by
    cases call <;> first | rfl | contradiction
  rw [hstep]
  exact ⟨hwhole d h, h⟩

/-- Creating the temporary file. -/
theorem run_openTemporary :
    Triple (publishing old new) (fun d => Unpublished old d ∧ d.temporary = false)
      (F.run .openTemporary) fun ok d =>
        Unpublished old d ∧ (ok = false → d.temporary = false) ∧ (ok = true → d.own.data = []) := by
  refine Triple.ask (fun d h => h.1.whole) ?_
  intro d ok h
  cases ok with
  | false => exact ⟨h.1.whole, h.1, fun _ => h.2, by simp⟩
  | true =>
      have hnext : Unpublished old ((publishing old new).step d ⟨.openTemporary, true, []⟩) :=
        ⟨h.1.target, h.1.older⟩
      exact ⟨hnext.whole, hnext, by simp, fun _ => rfl⟩

/-- What a call that writes has made of a file with `R`: it appended what it took
out of the buffer. -/
def Appended (R : FileData → Prop) (call : FileCall) (buffer : List UInt8)
    (answer : Bool × List UInt8) (own : FileData) : Prop :=
  ∃ before chunk, R before ∧ chunk ++ answer.2 = buffer ∧
    own = ⟨before.data ++ chunk, before.synced && chunk.isEmpty⟩ ∧
    (answer.1 = true → call ≠ .write → answer.2 = [])

/-- Writing, flushing and closing change the temporary file only. -/
theorem put_unpublished {R : FileData → Prop} {call : FileCall}
    (hcall : call = .write ∨ call = .flush ∨ call = .close) (buffer : List UInt8) :
    Triple (publishing old new) (fun d => Unpublished old d ∧ R d.own) (F.put call buffer)
      fun answer d => Unpublished old d ∧ Appended R call buffer answer d.own := by
  have hask : Triple (publishing old new) (fun d => Unpublished old d ∧ R d.own)
      (Script.ask (fun journal => (F.ok journal call, F.count journal call))
        fun answer => ⟨call, answer.1, FileEnv.sent call buffer answer⟩)
      fun answer d => Unpublished old d ∧ ∃ before, R before ∧ d.own =
        ⟨before.data ++ FileEnv.sent call buffer answer,
          before.synced && (FileEnv.sent call buffer answer).isEmpty⟩ := by
    refine Triple.ask (fun d h => h.1.whole) ?_
    intro d answer h
    have hstep : ∀ chunk, (publishing old new).step d ⟨call, answer.1, chunk⟩ =
        { d with own := ⟨d.own.data ++ chunk, d.own.synced && chunk.isEmpty⟩ } := by
      intro chunk
      rcases hcall with rfl | rfl | rfl <;> rfl
    have hnext : Unpublished old ((publishing old new).step d
        ⟨call, answer.1, FileEnv.sent call buffer answer⟩) := by
      rw [hstep]
      exact ⟨h.1.target, h.1.older⟩
    exact ⟨hnext.whole, hnext, d.own, h.2, by rw [hstep]⟩
  refine Triple.bind hask fun answer => Triple.pure (fun d h => h.1.whole) ?_
  rintro d ⟨hd, before, hR, hown⟩
  have hprefix : FileEnv.sent call buffer answer <+: buffer := by
    unfold FileEnv.sent
    split
    · exact List.prefix_rfl
    · exact List.take_prefix _ _
  refine ⟨hd, before, _, hR, List.prefix_iff_eq_append.mp hprefix, hown, ?_⟩
  intro hok hwrite
  have hsent : FileEnv.sent call buffer answer = buffer := by
    simp only at hok
    simp [FileEnv.sent, hok, hwrite]
  rw [hsent, List.drop_length]

/-- `fsync` makes the temporary file durable. -/
theorem run_fsync (data : List UInt8) :
    Triple (publishing old new) (fun d => Unpublished old d ∧ d.own.data = data) (F.run .fsync)
      fun ok d => Unpublished old d ∧ (ok = true → d.own = ⟨data, true⟩) := by
  refine Triple.ask (fun d h => h.1.whole) ?_
  intro d ok h
  cases ok with
  | false => exact ⟨h.1.whole, h.1, by simp⟩
  | true =>
      have hnext : Unpublished old ((publishing old new).step d ⟨.fsync, true, []⟩) :=
        ⟨h.1.target, h.1.older⟩
      exact ⟨hnext.whole, hnext, fun _ => by rw [← h.2]; rfl⟩

/-- A body that ends well has written and synced the whole payload. -/
theorem streamBody_unpublished (payload : List UInt8) :
    Triple (publishing old new) (fun d => Unpublished old d ∧ d.own.data = [])
      (F.streamBody payload) fun answer d => Unpublished old d ∧
        (answer.1 = true → answer.2 = [] ∧ d.own = ⟨payload, true⟩) := by
  have hfailed : ∀ {P : Disk → Prop} {rest : List UInt8}, (∀ d, P d → Unpublished old d) →
      Triple (publishing old new) P (pure (false, rest)) fun answer d => Unpublished old d ∧
        (answer.1 = true → answer.2 = [] ∧ d.own = ⟨payload, true⟩) :=
    fun hP => Triple.pure (fun d h => (hP d h).whole) fun d h => ⟨hP d h, by simp⟩
  have hwrite : Triple (publishing old new) (fun d => Unpublished old d ∧ d.own.data = [])
      (F.put .write payload) fun answer d => Unpublished old d ∧
        Appended (fun own => own.data = []) .write payload answer d.own :=
    put_unpublished F (R := fun own => own.data = []) (.inl rfl) payload
  refine Triple.bind hwrite ?_
  rintro ⟨written, rest⟩
  cases written with
  | false => exact hfailed fun d h => h.1
  | true =>
      have hflush : Triple (publishing old new)
          (fun d => Unpublished old d ∧ d.own.data ++ rest = payload) (F.put .flush rest)
          fun answer d => Unpublished old d ∧
            Appended (fun own => own.data ++ rest = payload) .flush rest answer d.own :=
        put_unpublished F (R := fun own => own.data ++ rest = payload) (.inr (.inl rfl)) rest
      refine Triple.bind (hflush.mono ?_ fun _ _ h => h) ?_
      · rintro d ⟨hd, before, chunk, hempty, hcut, hown, -⟩
        refine ⟨hd, ?_⟩
        rw [hown, hempty]
        exact hcut
      rintro ⟨flushed, left⟩
      cases flushed with
      | false => exact hfailed fun d h => h.1
      | true =>
          refine Triple.given (φ := left = []) ?_ ?_
          · rintro d ⟨-, before, chunk, -, -, -, hleft⟩
            exact hleft rfl (by simp)
          rintro rfl
          refine Triple.bind ((run_fsync F payload).mono ?_ fun _ _ h => h) fun synced => ?_
          · rintro d ⟨hd, before, chunk, hdata, hcut, hown, -⟩
            refine ⟨hd, ?_⟩
            rw [hown]
            rw [List.append_nil] at hcut
            rw [hcut]
            exact hdata
          · exact Triple.pure (fun d h => h.1.whole) fun d h => ⟨h.1, fun hok => ⟨rfl, h.2 hok⟩⟩

/-- A stream that was written and closed without failure leaves the whole payload,
synced: after a successful `flush` nothing is left for `close` to write. -/
theorem writeStream_unpublished (payload : List UInt8) :
    Triple (publishing old new) (fun d => Unpublished old d ∧ d.own.data = [])
      (F.writeStream payload) fun ok d =>
        Unpublished old d ∧ (ok = true → d.own = ⟨payload, true⟩) := by
  have hfdopen : Triple (publishing old new) (fun d => Unpublished old d ∧ d.own.data = [])
      (F.run .fdopen) fun _ d => Unpublished old d ∧ d.own.data = [] :=
    run_quiet F rfl fun d h => h.1.whole
  refine Triple.bind hfdopen fun opened => ?_
  cases opened with
  | false => exact Triple.pure (fun d h => h.1.whole) fun d h => ⟨h.1, by simp⟩
  | true =>
      refine Triple.bind (streamBody_unpublished F payload) ?_
      rintro ⟨written, rest⟩
      have hclose : Triple (publishing old new)
          (fun d => Unpublished old d ∧ (written = true → rest = [] ∧ d.own = ⟨payload, true⟩))
          (F.put .close rest) fun answer d => Unpublished old d ∧
            Appended (fun own => written = true → rest = [] ∧ own = ⟨payload, true⟩) .close rest
              answer d.own :=
        put_unpublished F (R := fun own => written = true → rest = [] ∧ own = ⟨payload, true⟩)
          (.inr (.inr rfl)) rest
      refine Triple.bind hclose ?_
      rintro ⟨closed, left⟩
      refine Triple.pure (fun d h => h.1.whole) ?_
      rintro d ⟨hd, before, chunk, hbefore, hcut, hown, -⟩
      refine ⟨hd, fun hok => ?_⟩
      rw [Bool.and_eq_true] at hok
      obtain ⟨hrest, hsynced⟩ := hbefore hok.1
      rw [hrest] at hcut
      rw [hown, hsynced, (List.append_eq_nil_iff.mp hcut).1, List.append_nil]
      rfl

/-- `replace` publishes all of it or nothing. -/
theorem run_replace :
    Triple (publishing old new) (fun d => Unpublished old d ∧ d.own = ⟨new, true⟩) (F.run .replace)
      fun ok d => if ok then Published old new d else Unpublished old d := by
  refine Triple.ask (fun d h => h.1.whole) ?_
  intro d ok h
  cases ok with
  | false => exact ⟨h.1.whole, h.1⟩
  | true =>
      have hnext : Published old new ((publishing old new).step d ⟨.replace, true, []⟩) := by
        refine ⟨h.2, rfl, fun link hlink => ?_, rfl⟩
        rw [← h.1.target, ← h.1.older]
        exact hlink
      exact ⟨hnext.whole, hnext⟩

/-- What is published stays published. -/
theorem run_fsyncDirectory :
    Triple (publishing old new) (Published old new) (F.run .fsyncDirectory)
      fun _ => Published old new := by
  refine Triple.ask (fun d h => h.whole) ?_
  intro d ok h
  have hnext : Published old new ((publishing old new).step d ⟨.fsyncDirectory, ok, []⟩) := by
    cases ok with
    | false => exact h
    | true => exact ⟨h.own, h.target, fun link hlink => (nomatch hlink), h.temporary⟩
  exact ⟨hnext.whole, hnext⟩

/-- `unlink` removes the temporary file. -/
def FileEnv.UnlinkWorks (F : FileEnv) : Prop := ∀ journal, F.ok journal .unlink = true

/-- Unlinking a name that is gone raises nothing but the `FileNotFoundError`
that is passed over. -/
def FileEnv.UnlinkMissing (F : FileEnv) (old : OldTarget) : Prop :=
  ∀ journal : List FileEvent, (journal.foldl Disk.step old.disk).temporary = false →
    F.ok journal .unlink = true

/-- What an `unlink` may have done. -/
def Unlinked (F : FileEnv) (old : OldTarget) (ok : Bool) (d : Disk) : Prop :=
  (F.UnlinkWorks → ok = true) ∧ (F.UnlinkMissing old → ok = false → d.temporary = true) ∧
    (ok = true → d.temporary = false)

/-- Removing the temporary name leaves the target as it is. -/
theorem run_unlink {P : Disk → Prop} (hwhole : ∀ d, P d → Whole old new d)
    (hP : ∀ d, P d → P { d with temporary := false }) :
    Triple (publishing old new) P (F.run .unlink) fun ok d => P d ∧ Unlinked F old ok d := by
  refine Triple.ask_known (A := fun d ok => (F.UnlinkWorks → ok = true) ∧
    (F.UnlinkMissing old → d.temporary = false → ok = true)) ?_ hwhole ?_
  · exact fun journal => ⟨fun h => h journal, fun h => h journal⟩
  · rintro d ok hd ⟨hworks, hmissing⟩
    cases ok with
    | false =>
        refine ⟨hwhole d hd, hd, hworks, fun h _ => ?_, by simp⟩
        cases htemporary : d.temporary with
        | true => exact htemporary
        | false => exact absurd (hmissing h htemporary) (by simp)
    | true => exact ⟨hwhole _ (hP d hd), hP d hd, fun _ => rfl, by simp, fun _ => rfl⟩

/-- **Cleaning up**: whatever the body did, the temporary file is gone when
`unlink` works. -/
theorem withTemporary_triple {body : Script FileEvent Bool} {Q : Bool → Disk → Prop}
    (hbody : Triple (publishing old new) (fun d => Unpublished old d ∧ d.own.data = []) body Q)
    (hwhole : ∀ ok d, Q ok d → Whole old new d)
    (hQ : ∀ ok d, Q ok d → Q ok { d with temporary := false }) :
    Triple (publishing old new) (fun d => Unpublished old d ∧ d.temporary = false)
      (F.withTemporary body) fun ok d =>
        (F.UnlinkWorks → d.temporary = false) ∧
          ((ok = false ∧ Unpublished old d) ∨
            ∃ done, Q done d ∧ (ok = true → done = true) ∧
              (F.UnlinkMissing old → ok = false → done = false ∨ d.temporary = true)) := by
  refine Triple.bind (run_openTemporary F) fun opened => ?_
  cases opened with
  | false =>
      refine Triple.pure (fun d h => h.1.whole) fun d h => ⟨fun _ => h.2.1 rfl, .inl ⟨rfl, h.1⟩⟩
  | true =>
      refine Triple.bind (hbody.mono (fun d h => ⟨h.1, h.2.2 rfl⟩) fun _ _ h => h) fun done => ?_
      refine Triple.bind (run_unlink F (hwhole done) (hQ done)) fun unlinked => ?_
      refine Triple.pure (fun d h => hwhole done d h.1) ?_
      rintro d ⟨hd, hworks, hmissing, hgone⟩
      refine ⟨fun h => hgone (hworks h), .inr ⟨done, hd, fun hok => ?_, fun h hfail => ?_⟩⟩
      · rw [Bool.and_eq_true] at hok
        exact hok.1
      · rw [Bool.and_eq_false_iff] at hfail
        exact hfail.imp_right (hmissing h)

end Parts

end SushidaOs
