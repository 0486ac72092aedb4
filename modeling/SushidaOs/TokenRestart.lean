import SushidaOs.Publication

/-!
# SushidaOs.TokenRestart

`csrf_token` over restarts of its process (`sushida_os/wifi/storage.py`).

The calls come one after the other, from one process or from new ones, and only
they write the token file.  Each has an operating system of its own: any call
of it may fail, and the process may be killed after any of them.

The file is written only where there is none, so a token that was returned once
stays in the file (`Keeps`), and whoever reads it finds the same token.
-/

namespace SushidaOs

open PyStr

namespace Publication

/-- The token file and what `lstat` says of it. -/
structure StoredFile where
  isRegular : Bool
  mode : Nat
  uid : Nat
  size : Nat
  data : List UInt8
  deriving DecidableEq, Repr

/-- What `_read_csrf_token` finds. -/
def StoredFile.found (f : StoredFile) (readable : Bool) : TokenFile :=
  .found f.isRegular f.mode f.uid f.size (if readable then some f.data else none)

/-- A call of `csrf_token`. -/
structure TokenCall where
  /-- The first call of its process. -/
  restarted : Bool
  /-- The process is killed after so many system calls. -/
  killed : Option Nat
  env : FileEnv
  lstatFails : List FileEvent → Bool
  readFails : List FileEvent → Bool
  directory : Bool
  /-- `0o600` without the bits of the umask. -/
  mode : Nat
  /-- `secrets.token_urlsafe(CSRF_TOKEN_BYTES)`. -/
  fresh : PyStr

/-- The runtime directory, and the token kept by the process. -/
structure TokenState where
  file : Option StoredFile
  cache : Option PyStr

namespace TokenCall

variable (uid : Nat) (s : TokenState) (c : TokenCall)

/-- The token file after some system calls. -/
def fileAfter (journal : List FileEvent) : Option StoredFile :=
  let disk := journal.foldl Disk.step (OldTarget.disk ⟨s.file.map fun f => ⟨f.data, true⟩, []⟩)
  match disk.target with
  | .absent => none
  | .other _ => s.file
  | .own => some ⟨true, c.mode, uid, disk.own.data.length, disk.own.data⟩

/-- What the call meets. -/
def world : TokenWorld where
  uid := uid
  cache := if c.restarted then none else s.cache
  file journal :=
    if c.lstatFails journal then .osError
    else
      match c.fileAfter uid s journal with
      | none => .missing
      | some f => f.found !c.readFails journal
  directory := c.directory
  fresh := c.fresh

/-- The state after the call, and its answer unless it was killed. -/
def run : TokenState × Option (Except TokenExc PyStr) :=
  let done := (csrfToken c.env (c.world uid s)).run
  match c.killed with
  | some k => (⟨c.fileAfter uid s (done.2.take k), none⟩, none)
  | none =>
      let cache := match done.1 with
        | .ok token => some token
        | .error _ => (c.world uid s).cache
      (⟨c.fileAfter uid s done.2, cache⟩, some done.1)

end TokenCall

/-- The answers of the calls. -/
def tokenAnswers (uid : Nat) : TokenState → List TokenCall → List (Option (Except TokenExc PyStr))
  | _, [] => []
  | s, c :: calls => (c.run uid s).2 :: tokenAnswers uid (c.run uid s).1 calls

/-! ## one call -/

/-- A script that starts with a look at the world. -/
theorem run_look_bind {ε α β : Type} (look : List ε → α) (k : α → Script ε β) :
    Script.run (((fun journal => (look journal, journal)) : Script ε α) >>= k) = k (look []) [] :=
  rfl

/-- The file is there, or it cannot be read: nothing is written. -/
theorem csrfToken_read {F : FileEnv} {T : TokenWorld} (hcache : T.cache = none)
    (h : readCsrfToken T.uid (T.file []) ≠ .error .fileNotFound) :
    (csrfToken F T).run = (readCsrfToken T.uid (T.file []), []) := by
  rw [csrfToken, hcache]
  refine (run_look_bind _ _).trans ?_
  cases hread : readCsrfToken T.uid (T.file []) with
  | ok token => rfl
  | error e =>
      cases e with
      | osError => rfl
      | runtimeError => rfl
      | fileNotFound => exact absurd hread h

/-- Where no file is found the call fails, or it reads the file that it has written. -/
theorem csrfToken_written {F : FileEnv} {T : TokenWorld} (hcache : T.cache = none)
    (h : readCsrfToken T.uid (T.file []) = .error .fileNotFound) :
    (∃ e, (csrfToken F T).run.1 = .error e) ∨
      ∃ journal, (csrfToken F T).run = (readCsrfToken T.uid (T.file journal), journal) := by
  obtain ⟨done, hdone⟩ : ∃ done, (csrfToken F T).run = done := ⟨_, rfl⟩
  rw [hdone]
  rw [csrfToken, hcache] at hdone
  have hrun := (run_look_bind _ _).symm.trans hdone
  rw [h] at hrun
  simp only at hrun
  split at hrun
  · exact .inl ⟨_, by rw [← hrun]; rfl⟩
  · rw [Script.bind_apply] at hrun
    cases hwritten : (F.withTemporary (replaceToken F (tokenPayload T.fresh)) []).1 with
    | false =>
        rw [hwritten] at hrun
        exact .inl ⟨_, by rw [← hrun]; rfl⟩
    | true =>
        rw [hwritten] at hrun
        exact .inr ⟨_, hrun.symm⟩

/-- A token is returned from the cache, or read from the file at the end of the
call. -/
theorem csrfToken_ok {F : FileEnv} {T : TokenWorld} {token : PyStr}
    (h : (csrfToken F T).run.1 = .ok token) :
    T.cache = some token ∨
      T.cache = none ∧ readCsrfToken T.uid (T.file (csrfToken F T).run.2) = .ok token := by
  cases hcache : T.cache with
  | some kept =>
      rw [csrfToken, hcache] at h
      exact .inl (congrArg some (Except.ok.inj h))
  | none =>
      right
      refine ⟨rfl, ?_⟩
      by_cases hread : readCsrfToken T.uid (T.file []) = .error .fileNotFound
      · rcases csrfToken_written (F := F) hcache hread with ⟨e, herror⟩ | ⟨journal, hrun⟩
        · rw [herror] at h
          contradiction
        · rw [hrun] at h ⊢
          exact h
      · rw [csrfToken_read hcache hread] at h ⊢
        exact h

/-- Only a file that is missing is not found. -/
theorem readCsrfToken_ne_fileNotFound {uid : Nat} {file : TokenFile} (h : file ≠ .missing) :
    readCsrfToken uid file ≠ .error .fileNotFound := by
  intro hread
  rw [readCsrfToken.eq_def] at hread
  split at hread
  · exact h rfl
  · contradiction
  split at hread
  · contradiction
  split at hread
  · contradiction
  split at hread
  · contradiction
  · simp only at hread
    split at hread
    · contradiction
    · contradiction

/-- Where a file is found nothing is written. -/
theorem csrfToken_journal {F : FileEnv} {T : TokenWorld} (h : T.file [] ≠ .missing) :
    (csrfToken F T).run.2 = [] := by
  cases hcache : T.cache with
  | some kept => rw [csrfToken, hcache]; rfl
  | none => rw [csrfToken_read hcache (readCsrfToken_ne_fileNotFound h)]

/-- What is read is a token. -/
theorem readCsrfToken_ok {uid : Nat} {file : TokenFile} {token : PyStr}
    (h : readCsrfToken uid file = .ok token) :
    32 ≤ token.length ∧ token.length ≤ 128 ∧ ∀ c ∈ token, isTokenChar c = true := by
  rw [readCsrfToken.eq_def] at h
  split at h
  · contradiction
  · contradiction
  split at h
  · contradiction
  split at h
  · contradiction
  split at h
  · contradiction
  · simp only at h
    split at h
    · contradiction
    · next hgood =>
        cases h
        simp only [Bool.or_eq_true, Bool.not_eq_true', Bool.and_eq_false_iff,
          decide_eq_false_iff_not, List.any_eq_true, not_or, not_exists, not_and,
          Bool.not_eq_false, not_not] at hgood
        exact ⟨hgood.1.1, hgood.1.2, hgood.2⟩

/-- A file that is read is readable. -/
theorem readCsrfToken_found {uid : Nat} {f : StoredFile} {readable : Bool} {token : PyStr}
    (h : readCsrfToken uid (f.found readable) = .ok token) :
    readCsrfToken uid (f.found true) = .ok token := by
  cases readable with
  | true => exact h
  | false =>
      rw [StoredFile.found, readCsrfToken] at h
      split at h
      · contradiction
      split at h
      · contradiction
      · contradiction

/-! ## all calls -/

/-- The file holds the token. -/
def Holds (uid : Nat) (token : PyStr) (file : Option StoredFile) : Prop :=
  ∃ f, file = some f ∧ readCsrfToken uid (f.found true) = .ok token

/-- The process has kept nothing but what the file holds. -/
def Sound (uid : Nat) (s : TokenState) : Prop :=
  ∀ token, s.cache = some token → Holds uid token s.file

/-- The token is in the file, and no process has another one. -/
def Keeps (uid : Nat) (token : PyStr) (s : TokenState) : Prop :=
  Holds uid token s.file ∧ ∀ kept, s.cache = some kept → kept = token

section Calls

variable {uid : Nat} {s : TokenState} {c : TokenCall}

theorem fileAfter_nil : c.fileAfter uid s [] = s.file := by
  obtain ⟨file, cache⟩ := s
  cases file <;> rfl

/-- A token is read from the file that is there. -/
theorem holds_of_read {journal : List FileEvent} {token : PyStr}
    (h : readCsrfToken uid ((c.world uid s).file journal) = .ok token) :
    Holds uid token (c.fileAfter uid s journal) := by
  simp only [TokenCall.world] at h
  split at h
  · contradiction
  · cases hfile : c.fileAfter uid s journal with
    | none => rw [hfile] at h; contradiction
    | some f =>
        rw [hfile] at h
        exact ⟨f, rfl, readCsrfToken_found h⟩

theorem Sound.world_cache (h : Sound uid s) {token : PyStr}
    (hcache : (c.world uid s).cache = some token) : Holds uid token s.file := by
  simp only [TokenCall.world] at hcache
  split at hcache
  · contradiction
  · exact h token hcache

/-- A call that has its token leaves it in the file. -/
theorem Sound.holds (h : Sound uid s) {token : PyStr}
    (hanswer : (csrfToken c.env (c.world uid s)).run.1 = .ok token) :
    Holds uid token (c.fileAfter uid s (csrfToken c.env (c.world uid s)).run.2) := by
  rcases csrfToken_ok hanswer with hcache | ⟨-, hread⟩
  · have hholds := h.world_cache hcache
    have hnothing : (csrfToken c.env (c.world uid s)).run.2 = [] := by
      rw [csrfToken, hcache]
      rfl
    rwa [hnothing, fileAfter_nil]
  · exact holds_of_read hread

/-- **One call**: whatever fails, and wherever it is killed, the file that is there
stays as it is. -/
theorem fileAfter_run (hfile : s.file ≠ none) {journal : List FileEvent}
    (h : journal <+: (csrfToken c.env (c.world uid s)).run.2) :
    c.fileAfter uid s journal = s.file := by
  have hfound : (c.world uid s).file [] ≠ .missing := by
    obtain ⟨f, hf⟩ := Option.ne_none_iff_exists'.mp hfile
    simp only [TokenCall.world, fileAfter_nil, hf]
    split
    · nofun
    · nofun
  rw [csrfToken_journal hfound] at h
  rw [List.prefix_nil.mp h, fileAfter_nil]

theorem run_file (hfile : s.file ≠ none) : (c.run uid s).1.file = s.file := by
  rw [TokenCall.run]
  cases c.killed with
  | none => exact fileAfter_run hfile (List.prefix_refl _)
  | some k => exact fileAfter_run hfile (List.take_prefix k _)

theorem Sound.run (h : Sound uid s) : Sound uid (c.run uid s).1 := by
  rw [TokenCall.run]
  cases c.killed with
  | some k => exact fun token hcache => nomatch hcache
  | none =>
      intro token hcache
      simp only at hcache ⊢
      cases hanswer : (csrfToken c.env (c.world uid s)).run.1 with
      | ok answer =>
          rw [hanswer] at hcache
          rw [← Option.some.inj hcache]
          exact h.holds hanswer
      | error e =>
          rw [hanswer] at hcache
          have hholds := h.world_cache hcache
          have hfile : s.file ≠ none := by
            obtain ⟨f, hf, -⟩ := hholds
            rw [hf]
            nofun
          rwa [fileAfter_run hfile (List.prefix_refl _)]

/-- An answer with a token: from here on it is kept. -/
theorem Sound.keeps (h : Sound uid s) {token : PyStr}
    (hanswer : (c.run uid s).2 = some (.ok token)) : Keeps uid token (c.run uid s).1 := by
  rw [TokenCall.run] at hanswer ⊢
  cases hkilled : c.killed with
  | some k => rw [hkilled] at hanswer; contradiction
  | none =>
      rw [hkilled] at hanswer
      have hok := Option.some.inj hanswer
      refine ⟨h.holds hok, fun kept hkept => ?_⟩
      simp only [hok] at hkept
      exact (Option.some.inj hkept).symm

theorem Holds.file_ne_none {token : PyStr} {file : Option StoredFile} (h : Holds uid token file) :
    file ≠ none := by
  obtain ⟨f, hf, -⟩ := h
  rw [hf]
  nofun

theorem Holds.unique {token token' : PyStr} {file : Option StoredFile} (h : Holds uid token file)
    (h' : Holds uid token' file) : token = token' := by
  obtain ⟨f, hf, hread⟩ := h
  obtain ⟨f', hf', hread'⟩ := h'
  rw [hf] at hf'
  rw [← Option.some.inj hf', hread] at hread'
  exact Except.ok.inj hread'

/-- **One call after a token was returned.** -/
theorem Keeps.run {token : PyStr} (h : Keeps uid token s) :
    Keeps uid token (c.run uid s).1 ∧
      ∀ answer, (c.run uid s).2 = some (.ok answer) → answer = token := by
  have hsound : Sound uid s := fun kept hkept => h.2 kept hkept ▸ h.1
  have hfile : (c.run uid s).1.file = s.file := run_file h.1.file_ne_none
  have hholds : Holds uid token (c.run uid s).1.file := by rw [hfile]; exact h.1
  refine ⟨⟨hholds, fun kept hkept => ?_⟩, fun answer hanswer => ?_⟩
  · exact (hsound.run kept hkept).unique hholds
  · exact (hsound.keeps hanswer).1.unique hholds

/-- **All later calls.** -/
theorem Keeps.answers {token : PyStr} (h : Keeps uid token s) (calls : List TokenCall) :
    ∀ answer ∈ tokenAnswers uid s calls, ∀ later, answer = some (.ok later) → later = token := by
  induction calls generalizing s with
  | nil => exact fun answer hanswer => nomatch hanswer
  | cons c calls ih =>
      obtain ⟨hkeeps, hsame⟩ := h.run (c := c)
      rw [tokenAnswers, List.forall_mem_cons]
      exact ⟨fun later hlater => hsame later hlater, ih hkeeps⟩

end Calls

/-- **The token is stable**: of two calls that return, the later one returns the token
of the earlier one, and every token has the length and the alphabet. -/
theorem token_stable (uid : Nat) (file : Option StoredFile) (calls : List TokenCall) :
    (tokenAnswers uid ⟨file, none⟩ calls).Pairwise (fun earlier later =>
        ∀ token token', earlier = some (.ok token) → later = some (.ok token') →
          token' = token) ∧
      ∀ answer ∈ tokenAnswers uid ⟨file, none⟩ calls, ∀ token, answer = some (.ok token) →
        32 ≤ token.length ∧ token.length ≤ 128 ∧ ∀ c ∈ token, isTokenChar c = true := by
  have hrun : ∀ (calls : List TokenCall) (s : TokenState), Sound uid s →
      (tokenAnswers uid s calls).Pairwise (fun earlier later =>
        ∀ token token', earlier = some (.ok token) → later = some (.ok token') →
          token' = token) ∧
      ∀ answer ∈ tokenAnswers uid s calls, ∀ token, answer = some (.ok token) →
        32 ≤ token.length ∧ token.length ≤ 128 ∧ ∀ c ∈ token, isTokenChar c = true := by
    intro calls
    induction calls with
    | nil => exact fun s _ => ⟨.nil, fun answer hanswer => nomatch hanswer⟩
    | cons c calls ih =>
        intro s hsound
        obtain ⟨hpairs, hgood⟩ := ih _ (hsound.run (c := c))
        rw [tokenAnswers, List.pairwise_cons, List.forall_mem_cons]
        refine ⟨⟨?_, hpairs⟩, ?_, hgood⟩
        · intro later hlater token token' hearlier htoken'
          exact (hsound.keeps hearlier).answers calls later hlater token' htoken'
        · intro token hanswer
          obtain ⟨f, -, hread⟩ := (hsound.keeps hanswer).1
          exact readCsrfToken_ok hread
  exact hrun calls _ fun token hcache => nomatch hcache

/-- A call on a disk that takes everything. -/
def plainCall (restarted : Bool) (killed : Option Nat) (letter : CodePoint) : TokenCall where
  restarted := restarted
  killed := killed
  env := ⟨fun _ _ => true, fun _ _ => 0⟩
  lstatFails _ := false
  readFails _ := false
  directory := true
  mode := 0o600
  fresh := List.replicate 43 letter

-- The first process is killed before the replacement, the second one publishes its token.
example :
    tokenAnswers 0 ⟨none, none⟩
        [plainCall true (some 3) 0x61, plainCall true none 0x62, plainCall true none 0x63] =
      [none, some (.ok (List.replicate 43 0x62)), some (.ok (List.replicate 43 0x62))] := by
  decide

end Publication

end SushidaOs
