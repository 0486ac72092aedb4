import Mathlib.Algebra.Order.Ring.Int
import Mathlib.Data.List.Lex
import Mathlib.Data.List.Nodup
import Mathlib.Data.Prod.Lex
import Mathlib.Order.Fin.Basic
import SushidaOs.FirstMax
import SushidaOs.Navigation.Classify

/-!
# SushidaOs.Navigation.Newest

`assess_sessions` of `sushida-navigation-watch`: which file of the sessions
directory is looked at.

The list of candidates is cut at `maxCandidateFiles` names in the order of
`os.listdir`, and the newest is chosen from what is left.
-/

namespace SushidaOs

open PyStr Url

namespace Navigation

/-- `MAX_CANDIDATE_FILES`. -/
def maxCandidateFiles : Nat := 64

/-- The fields of `os.stat_result` that are read. -/
structure StatResult where
  mode : Nat
  mtimeNs : Int
  size : Nat
  deriving DecidableEq, Repr

/-- A name in the directory and what the calls on its path answer; `none` is an
`OSError`. -/
structure DirEntry where
  name : PyStr
  lstat : Option StatResult
  stat : Option StatResult
  readBytes : Option (List UInt8)
  deriving DecidableEq, Repr

/-- `stat_is_regular_file`. -/
def statIsRegularFile (mode : Nat) : Bool := Nat.land mode 0o170000 == 0o100000

/-- The loop of `_session_candidates` with the candidates so far. -/
def collectCandidates (candidates : List DirEntry) : List DirEntry → List DirEntry
  | [] => candidates
  | e :: rest =>
      if !((lit "Session_").isPrefixOf e.name || (lit "Tabs_").isPrefixOf e.name) then
        collectCandidates candidates rest
      else match e.lstat with
        | none => collectCandidates candidates rest
        | some info =>
            if !statIsRegularFile info.mode then collectCandidates candidates rest
            else if maxCandidateFiles ≤ (candidates ++ [e]).length then candidates ++ [e]
            else collectCandidates (candidates ++ [e]) rest

/-- `_session_candidates`, for the answer of `os.listdir`. -/
def sessionCandidates : Option (List DirEntry) → List DirEntry
  | none => []
  | some listing => collectCandidates [] listing

/-- The key of a candidate in `max`. -/
def candidateKey (e : DirEntry) : Option (Int ×ₗ PyStr) :=
  e.stat.map fun info => toLex (info.mtimeNs, e.name)

/-- `max(candidates, key=...)`; `none` is an `OSError` of a key. -/
def newestCandidate (candidates : List DirEntry) : Option DirEntry :=
  match candidates.mapM fun e => (candidateKey e).map fun key => (key, e) with
  | none => none
  | some keyed => (firstMax Prod.fst keyed).map Prod.snd

/-- `assess_sessions`. -/
def assessSessions (D : UrlData) (listing : Option (List DirEntry)) : Classification :=
  match sessionCandidates listing with
  | [] => .unknown
  | e :: rest =>
      match newestCandidate (e :: rest) with
      | none => .unknown
      | some newest =>
          match newest.stat with
          | none => .unknown
          | some info =>
              if Session.maxSessionBytes < info.size then .unknown
              else match newest.readBytes with
                | none => .unknown
                | some data => assessUrls D .unknown ((Session.currentEntries data).map Prod.snd)

/-! ## the candidates -/

/-- A regular file with the name of a session. -/
def DirEntry.isCandidate (e : DirEntry) : Bool :=
  ((lit "Session_").isPrefixOf e.name || (lit "Tabs_").isPrefixOf e.name) &&
    e.lstat.any fun info => statIsRegularFile info.mode

/-- The loop collects candidates in the order of the directory, up to the limit. -/
theorem collectCandidates_eq {candidates : List DirEntry}
    (h : candidates.length < maxCandidateFiles) (listing : List DirEntry) :
    collectCandidates candidates listing =
      candidates ++ (listing.filter DirEntry.isCandidate).take
        (maxCandidateFiles - candidates.length) := by
  induction listing generalizing candidates with
  | nil => simp [collectCandidates]
  | cons e rest ih =>
      rw [collectCandidates]
      cases hnamed : (lit "Session_").isPrefixOf e.name || (lit "Tabs_").isPrefixOf e.name with
      | false =>
          have hskip : e.isCandidate = false := by simp only [DirEntry.isCandidate, hnamed,
            Bool.false_and]
          simp only [Bool.not_false, if_true, ih h, List.filter_cons, hskip, Bool.false_eq_true,
            if_false]
      | true =>
          simp only [Bool.not_true, Bool.false_eq_true, if_false]
          cases hlstat : e.lstat with
          | none =>
              have hskip : e.isCandidate = false := by
                simp only [DirEntry.isCandidate, hlstat, Option.any_none, Bool.and_false]
              simp only [ih h, List.filter_cons, hskip, Bool.false_eq_true, if_false]
          | some info =>
              have hregular : e.isCandidate = statIsRegularFile info.mode := by
                simp only [DirEntry.isCandidate, hnamed, hlstat, Option.any_some, Bool.true_and]
              simp only [List.filter_cons, hregular]
              cases statIsRegularFile info.mode with
              | false => simp only [Bool.not_false, if_true, ih h, Bool.false_eq_true, if_false]
              | true =>
                  simp only [Bool.not_true, Bool.false_eq_true, if_false, if_true,
                    List.length_append, List.length_singleton]
                  obtain ⟨left, hleft⟩ : ∃ left, maxCandidateFiles - candidates.length = left + 1 :=
                    Nat.exists_eq_add_one.mpr (by omega)
                  rw [hleft, List.take_succ_cons]
                  by_cases hfull : maxCandidateFiles ≤ candidates.length + 1
                  · obtain rfl : left = 0 := by omega
                    rw [if_pos hfull, List.take_zero]
                  · have hlength : (candidates ++ [e]).length = candidates.length + 1 := by simp
                    rw [if_neg hfull, ih (by omega), hlength, List.append_assoc,
                      List.singleton_append]
                    congr 4
                    omega

theorem sessionCandidates_eq (listing : List DirEntry) :
    sessionCandidates (some listing) =
      (listing.filter DirEntry.isCandidate).take maxCandidateFiles :=
  collectCandidates_eq (by decide) listing

/-! ## a directory whose files are readable -/

/-- A sessions directory in which every session file can be read. -/
structure SessionsDir where
  entries : List DirEntry
  names_nodup : (entries.map DirEntry.name).Nodup
  readable : ∀ e ∈ entries, e.isCandidate = true → ∃ info data,
    e.stat = some info ∧ e.readBytes = some data ∧ info.size = data.length

/-- The session files. -/
def SessionsDir.files (dir : SessionsDir) : List DirEntry :=
  dir.entries.filter DirEntry.isCandidate

/-- The modification time and the name, by which files are compared. -/
def DirEntry.key (e : DirEntry) : Int ×ₗ PyStr :=
  toLex ((e.stat.map StatResult.mtimeNs).getD 0, e.name)

/-- What the watcher says of the file. -/
def DirEntry.verdict (D : UrlData) (e : DirEntry) : Classification :=
  assessData D (e.readBytes.getD [])

theorem SessionsDir.nodup_keys (dir : SessionsDir) : (dir.files.map DirEntry.key).Nodup := by
  have hnames : (dir.files.map DirEntry.name).Nodup :=
    dir.names_nodup.sublist (List.filter_sublist.map DirEntry.name)
  have hproj : dir.files.map DirEntry.name =
      (dir.files.map DirEntry.key).map fun key => (ofLex key).2 := by
    rw [List.map_map]
    rfl
  rw [hproj] at hnames
  exact hnames.of_map

/-- Of candidates with a status the newest is the first maximum. -/
theorem newestCandidate_eq {candidates : List DirEntry}
    (h : ∀ e ∈ candidates, e.stat.isSome = true) :
    newestCandidate candidates = firstMax DirEntry.key candidates := by
  have hkey : ∀ e ∈ candidates,
      ((candidateKey e).map fun key => (key, e)) = some (e.key, e) := by
    intro e he
    obtain ⟨info, hstat⟩ := Option.isSome_iff_exists.mp (h e he)
    simp only [candidateKey, DirEntry.key, hstat, Option.map_some, Option.getD_some]
  have hall : (candidates.mapM fun e => (candidateKey e).map fun key => (key, e)) =
      some (candidates.map fun e => (e.key, e)) := by
    clear h
    induction candidates with
    | nil => rfl
    | cons e rest ih =>
        have hrest := ih fun d hd => hkey d (List.mem_cons_of_mem e hd)
        rw [List.mapM_cons, hkey e List.mem_cons_self, hrest]
        rfl
  simp only [newestCandidate, hall, firstMax_map, Option.map_map]
  exact Option.map_id'

/-- The verdict on a file, if there is one. -/
def verdictOn (D : UrlData) : Option DirEntry → Classification
  | none => .unknown
  | some e => e.verdict D

/-- The newest of the first candidates is assessed. -/
theorem assessSessions_eq (D : UrlData) {dir : SessionsDir} {listing : List DirEntry}
    (h : listing.Perm dir.entries) :
    assessSessions D (some listing) =
      verdictOn D (firstMax DirEntry.key
        ((listing.filter DirEntry.isCandidate).take maxCandidateFiles)) := by
  have hreadable : ∀ e ∈ sessionCandidates (some listing), ∃ info data,
      e.stat = some info ∧ e.readBytes = some data ∧ info.size = data.length := by
    intro e he
    rw [sessionCandidates_eq] at he
    have hmem := List.mem_filter.mp (List.mem_of_mem_take he)
    exact dir.readable e (h.mem_iff.mp hmem.1) hmem.2
  rw [← sessionCandidates_eq]
  cases hcandidates : sessionCandidates (some listing) with
  | nil => simp only [assessSessions, hcandidates, firstMax, List.foldl_nil, verdictOn]
  | cons e rest =>
      rw [hcandidates] at hreadable
      have hstat : ∀ d ∈ e :: rest, d.stat.isSome = true := by
        intro d hd
        obtain ⟨info, data, hstat, -, -⟩ := hreadable d hd
        rw [hstat, Option.isSome_some]
      simp only [assessSessions, hcandidates, newestCandidate_eq hstat]
      cases hmax : firstMax DirEntry.key (e :: rest) with
      | none => rfl
      | some newest =>
          obtain ⟨info, data, hstat, hread, hsize⟩ := hreadable newest (mem_of_firstMax hmax)
          simp only [verdictOn, DirEntry.verdict, assessData, hstat, hread, hsize,
            Option.getD_some]

/-! ## the newest file -/

/-- Every other session file is older, or as old with a smaller name. -/
def SessionsDir.IsNewest (dir : SessionsDir) (e : DirEntry) : Prop :=
  e ∈ dir.files ∧ ∀ d ∈ dir.files, d.key ≤ e.key

/-- How many session files come before this one. -/
def SessionsDir.older (dir : SessionsDir) (e : DirEntry) : Nat :=
  dir.files.countP fun d => d.key < e.key

/-- The file that is assessed in some order of the listing. -/
theorem exists_listing_iff (dir : SessionsDir) (e : DirEntry) :
    (∃ listing : List DirEntry, listing.Perm dir.entries ∧ firstMax DirEntry.key
        ((listing.filter DirEntry.isCandidate).take maxCandidateFiles) = some e) ↔
      dir.IsNewest e ∨ (e ∈ dir.files ∧ maxCandidateFiles - 1 ≤ dir.older e) := by
  have hcut :=
    exists_perm_firstMax_take (a := e) (n := maxCandidateFiles) dir.nodup_keys (by decide)
  rw [SessionsDir.IsNewest, ← and_or_left, SessionsDir.older, ← hcut]
  constructor
  · rintro ⟨listing, hperm, hmax⟩
    exact ⟨listing.filter DirEntry.isCandidate, hperm.filter DirEntry.isCandidate, hmax⟩
  · rintro ⟨files, hperm, hmax⟩
    refine ⟨files ++ dir.entries.filter fun d => !d.isCandidate, ?_, ?_⟩
    · exact (hperm.append_right _).trans (List.filter_append_perm DirEntry.isCandidate dir.entries)
    · have hfiles : files.filter DirEntry.isCandidate = files := by
        refine List.filter_eq_self.mpr fun d hd => ?_
        exact List.of_mem_filter (hperm.mem_iff.mp hd)
      have hothers : (dir.entries.filter fun d => !d.isCandidate).filter DirEntry.isCandidate =
          [] := by
        refine List.filter_eq_nil_iff.mpr fun d hd => ?_
        simpa using List.of_mem_filter hd
      rw [List.filter_append, hfiles, hothers, List.append_nil]
      exact hmax

/-- **The newest file**: its verdict is the answer in every order of the listing
exactly if every session file with 63 older ones has the same verdict. -/
theorem newest_assessed_iff (D : UrlData) (dir : SessionsDir) (newest : DirEntry)
    (hnewest : dir.IsNewest newest) :
    (∀ listing : List DirEntry, listing.Perm dir.entries →
        assessSessions D (some listing) = newest.verdict D) ↔
      ∀ e ∈ dir.files, 63 ≤ dir.older e → e.verdict D = newest.verdict D := by
  constructor
  · intro hall e he holder
    obtain ⟨listing, hperm, hmax⟩ := (exists_listing_iff dir e).mpr (Or.inr ⟨he, holder⟩)
    have hverdict := hall listing hperm
    rwa [assessSessions_eq D hperm, hmax] at hverdict
  · intro hsame listing hperm
    rw [assessSessions_eq D hperm]
    cases hmax : firstMax DirEntry.key
        ((listing.filter DirEntry.isCandidate).take maxCandidateFiles) with
    | none =>
        have hmem : newest ∈ listing.filter DirEntry.isCandidate :=
          (hperm.filter DirEntry.isCandidate).mem_iff.mpr hnewest.1
        have hnil := firstMax_eq_none_iff.mp hmax
        rw [List.take_eq_nil_iff] at hnil
        rcases hnil with hzero | hempty
        · contradiction
        · rw [hempty] at hmem
          contradiction
    | some e =>
        rcases (exists_listing_iff dir e).mp ⟨listing, hperm, hmax⟩ with hfirst | ⟨he, holder⟩
        · have hkey : e.key = newest.key :=
            le_antisymm (hnewest.2 e hfirst.1) (hfirst.2 newest hnewest.1)
          have heq : e = newest :=
            List.inj_on_of_nodup_map dir.nodup_keys hfirst.1 hnewest.1 hkey
          rw [heq, verdictOn]
        · exact hsame e he holder

/-- An empty file from the start of the epoch. -/
def oldFile (i : Nat) : DirEntry where
  name := lit "Tabs_" ++ List.replicate i 0x78
  lstat := some ⟨0o100600, 0, 0⟩
  stat := some ⟨0o100600, 0, 0⟩
  readBytes := some []

/-- A later file whose tab shows `data:x`. -/
def blockedFile : DirEntry where
  name := lit "Session_1"
  lstat := some ⟨0o100600, 1, 31⟩
  stat := some ⟨0o100600, 1, 31⟩
  readBytes := some (Session.magic ++ Bytes.le32 1 ++ 0x06 :: (Bytes.le32 18 ++ [1, 0, 0, 0] ++
    Bytes.le32 0 ++ Bytes.le32 6 ++ [0x64, 0x61, 0x74, 0x61, 0x3a, 0x78]))

/-- The later file among old ones. -/
def withOldFiles (n : Nat) : List DirEntry := (List.range n).map oldFile ++ [blockedFile]

/-- All the files can be read. -/
theorem readable_withOldFiles {n : Nat} {e : DirEntry} (h : e ∈ withOldFiles n) :
    ∃ info data, e.stat = some info ∧ e.readBytes = some data ∧ info.size = data.length := by
  rcases List.mem_append.mp h with hold | hlater
  · obtain ⟨i, -, rfl⟩ := List.mem_map.mp hold
    exact ⟨_, _, rfl, rfl, rfl⟩
  · rw [List.mem_singleton.mp hlater]
    exact ⟨_, _, rfl, rfl, by decide⟩

theorem nodup_withOldFiles (n : Nat) : ((withOldFiles n).map DirEntry.name).Nodup := by
  have hinj : Function.Injective fun i => (oldFile i).name := by
    intro i j hij
    exact List.replicate_left_injective _ (List.append_cancel_left hij)
  rw [withOldFiles, List.map_append, List.map_map, List.nodup_append]
  refine ⟨List.nodup_range.map hinj, List.nodup_singleton _, ?_⟩
  intro name hold later hlater heq
  obtain ⟨i, -, rfl⟩ := List.mem_map.mp hold
  rw [List.map_singleton, List.mem_singleton] at hlater
  have hhead : (oldFile i).name.head? = blockedFile.name.head? := by
    rw [← hlater, ← heq]
    rfl
  have hne : (lit "Tabs_").head? ≠ (lit "Session_1").head? := by decide
  exact hne hhead

/-- The directory with `n` old files. -/
def withOldFilesDir (n : Nat) : SessionsDir where
  entries := withOldFiles n
  names_nodup := nodup_withOldFiles n
  readable := fun _ he _ => readable_withOldFiles he

theorem isCandidate_oldFile (i : Nat) : (oldFile i).isCandidate = true := rfl

/-- All the files are candidates. -/
theorem files_withOldFilesDir (n : Nat) : (withOldFilesDir n).files = withOldFiles n := by
  refine List.filter_eq_self.mpr fun e he => ?_
  rcases List.mem_append.mp he with hold | hlater
  · obtain ⟨i, -, rfl⟩ := List.mem_map.mp hold
    exact isCandidate_oldFile i
  · rw [List.mem_singleton.mp hlater]
    rfl

/-- The file of the blocked tab is the newest. -/
theorem isNewest_blockedFile (n : Nat) : (withOldFilesDir n).IsNewest blockedFile := by
  rw [SessionsDir.IsNewest, files_withOldFilesDir]
  refine ⟨List.mem_append_right _ (List.mem_singleton_self _), fun d hd => ?_⟩
  rcases List.mem_append.mp hd with hold | hlater
  · obtain ⟨i, -, rfl⟩ := List.mem_map.mp hold
    exact Prod.Lex.toLex_le_toLex.mpr (Or.inl Int.zero_lt_one)
  · rw [List.mem_singleton.mp hlater]

theorem lone_file_assessed :
    (withOldFilesDir 0).IsNewest blockedFile ∧
      assessSessions .ascii (some [blockedFile]) = blockedFile.verdict .ascii := by
  refine ⟨isNewest_blockedFile 0, (newest_assessed_iff .ascii (withOldFilesDir 0) blockedFile
    (isNewest_blockedFile 0)).mpr ?_ _ (.refl _)⟩
  intro e he _
  rw [files_withOldFilesDir] at he
  rw [List.mem_singleton.mp he]

/-- The blocked file is missed when 64 others are listed first. -/
theorem newest_file_missed :
    (withOldFilesDir 64).IsNewest blockedFile ∧ blockedFile.verdict .ascii = .blocked ∧
      assessSessions .ascii (some (withOldFiles 64)) = .unknown ∧
      assessSessions .ascii (some (blockedFile :: (List.range 64).map oldFile)) = .blocked := by
  have hblocked : blockedFile.verdict .ascii = .blocked := by decide
  have hperm : (blockedFile :: (List.range 64).map oldFile).Perm (withOldFiles 64) :=
    (List.perm_append_singleton blockedFile _).symm
  refine ⟨isNewest_blockedFile 64, hblocked, ?_, ?_⟩
  · have hcut : (withOldFiles 64).take maxCandidateFiles = (List.range 64).map oldFile :=
      List.take_left' rfl
    have hfiles : (withOldFiles 64).filter DirEntry.isCandidate = withOldFiles 64 :=
      files_withOldFilesDir 64
    have hself : (withOldFiles 64).Perm (withOldFilesDir 64).entries := .refl _
    rw [assessSessions_eq .ascii hself, hfiles, hcut]
    cases hmax : firstMax DirEntry.key ((List.range 64).map oldFile) with
    | none => rfl
    | some e =>
        obtain ⟨i, -, rfl⟩ := List.mem_map.mp (mem_of_firstMax hmax)
        rfl
  · have hfiles : (blockedFile :: (List.range 64).map oldFile).filter DirEntry.isCandidate =
        blockedFile :: (List.range 64).map oldFile := by
      refine List.filter_eq_self.mpr fun e he => ?_
      rw [hperm.mem_iff, ← files_withOldFilesDir] at he
      exact List.of_mem_filter he
    have hmax : firstMax DirEntry.key ((blockedFile :: (List.range 64).map oldFile).take
        maxCandidateFiles) = some blockedFile := by
      refine firstMax_cons_of_le fun d hd => ?_
      refine (isNewest_blockedFile 64).2 d ?_
      rw [files_withOldFilesDir]
      exact List.mem_append_left _ (List.mem_of_mem_take hd)
    have hentries :
        (blockedFile :: (List.range 64).map oldFile).Perm (withOldFilesDir 64).entries := hperm
    rw [assessSessions_eq .ascii hentries, hfiles, hmax]
    exact hblocked

end Navigation

end SushidaOs
