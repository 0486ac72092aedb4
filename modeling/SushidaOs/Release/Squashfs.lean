import SushidaOs.Release.Strict

/-!
# SushidaOs.Release.Squashfs

The check of the image in `scripts/verify-iso.sh` (`mode_to_symbolic`,
`verify_squashfs`).

Required paths, and the entries of the files that are compared byte by byte,
are looked up in the listing of `unsquashfs -ll` with `grep -F`, as a part of a
line and for the entries in the first such line that `grep` prints.

The loops read records that end with a NUL, so a text of the contract with a NUL
in it is more than one record.
-/

namespace SushidaOs

namespace Release

/-! ## the contract -/

/-- An element of `required_iso_paths`. -/
structure RequiredPath where
  path : ShStr
  region : ShStr
  deriving DecidableEq, Repr

/-- An element of `source_image_mappings`. -/
structure Mapping where
  source : ShStr
  image : ShStr
  region : ShStr
  mode : ShStr
  owner : ShStr
  group : ShStr
  currentVerification : ShStr
  deriving DecidableEq, Repr

structure ReleaseContract where
  requiredIsoPaths : List RequiredPath
  sourceImageMappings : List Mapping

/-- The paths that must be in the image. -/
def ReleaseContract.required (contract : ReleaseContract) : List ShStr :=
  (contract.requiredIsoPaths.filter fun r => r.region == Sh.lit "squashfs").map RequiredPath.path

/-- The mappings that are compared byte by byte. -/
def ReleaseContract.exact (contract : ReleaseContract) : List Mapping :=
  contract.sourceImageMappings.filter fun m =>
    m.region == Sh.lit "squashfs" && m.currentVerification == Sh.lit "exact"

/-- The records of the loop over the required paths. -/
def ReleaseContract.requiredRecords (contract : ReleaseContract) : List ShStr :=
  records (nulTerminated contract.required)

/-- What `jq` takes of a mapping. -/
def Mapping.fields (m : Mapping) : List ShStr := [m.source, m.image, m.mode, m.owner, m.group]

/-- A round of the loop over the mappings. -/
structure Round where
  source : ShStr
  image : ShStr
  mode : ShStr
  owner : ShStr
  group : ShStr
  deriving DecidableEq, Repr

/-- Five records make a round; with fewer the loop ends. -/
def roundsOf : List ShStr → List Round
  | source :: image :: mode :: owner :: group :: rest =>
      ⟨source, image, mode, owner, group⟩ :: roundsOf rest
  | _ => []

/-- The rounds of the loop over the mappings. -/
def ReleaseContract.rounds (contract : ReleaseContract) : List Round :=
  roundsOf (records (nulTerminated (contract.exact.flatMap Mapping.fields)))

/-! ## modes -/

/-- `rwx` for an octal digit. -/
def modeDigit (digit : UInt8) : Option ShStr :=
  if digit = 0x30 then some (Sh.lit "---")
  else if digit = 0x31 then some (Sh.lit "--x")
  else if digit = 0x32 then some (Sh.lit "-w-")
  else if digit = 0x33 then some (Sh.lit "-wx")
  else if digit = 0x34 then some (Sh.lit "r--")
  else if digit = 0x35 then some (Sh.lit "r-x")
  else if digit = 0x36 then some (Sh.lit "rw-")
  else if digit = 0x37 then some (Sh.lit "rwx")
  else none

/-- `${s#c}` for one character. -/
def withoutFront (c : UInt8) : ShStr → ShStr
  | [] => []
  | b :: s => if b = c then s else b :: s

/-- `mode_to_symbolic`. -/
def modeToSymbolic (mode : ShStr) : Option ShStr :=
  let digits := withoutFront 0x30 mode
  if digits.length = 3 then (digits.mapM modeDigit).map List.flatten else none

/-! ## the check -/

/-- What the tools answer. -/
structure ImageTools where
  /-- `iso_extract_file`, `squashfs_list` -/
  extracted : Bool
  listing : Option ShStr
  /-- A regular file of the repository, and no symlink. -/
  isSource : ShStr → Bool
  /-- `mkdir -p` of the directory of an extracted file. -/
  mkdir : ShStr → Nat
  /-- `squashfs_cat` of a pattern. -/
  cat : ShStr → Bool
  /-- `cmp -s` of a source and what a pattern extracts. -/
  same : ShStr → ShStr → Bool
  /-- Every byte of the line is text in the locale. -/
  isText : ShStr → Bool
  /-- `head -n 1` has left before `grep` has written all its lines. -/
  headLeft : ShStr → Bool

/-- `sed -e 's/[\\*?[]/\\&/g'` -/
def escapeGlob (s : ShStr) : ShStr :=
  s.flatMap fun b => if b = 0x5c ∨ b = 0x2a ∨ b = 0x3f ∨ b = 0x5b then [0x5c, b] else [b]

/-- `squashfs-root$path`, what `grep -F` looks for. -/
def rooted (path : ShStr) : ShStr := Sh.lit "squashfs-root" ++ path

/-- The message for a required path. -/
def missing (path : ShStr) : ShStr := Sh.lit "required image path missing: " ++ path

/-- The loop over the required paths. -/
def requirePaths (listing : ShStr) (paths : List ShStr) : Except Stop Unit :=
  paths.forM fun path =>
    require ((fileLines listing).any (grepFixed (rooted path))) (missing path)

/-- `entry="$(grep -F "squashfs-root$map_image" ... | head -n 1)"`.  A line that is no text
counts as a hit of `grep`, which does not print it. -/
def entryLine (tools : ImageTools) (listing image : ShStr) : Except Stop ShStr :=
  let hits := (fileLines listing).filter (grepFixed (rooted image))
  let printed := hits.filter tools.isText
  if hits = [] then .error (.errexit 1)
  else if tools.headLeft image && decide (1 < printed.length) then .error (.errexit 141)
  else .ok (Sh.capture ((printed.take 1).flatMap fun line => line ++ [0x0a]))

/-- The mode and the owner of the line that a round holds against the contract. -/
structure Compared where
  mode : ShStr
  owner : ShStr
  deriving DecidableEq, Repr

/-- A round up to its comparisons: the mode of the contract, and what is compared. -/
def comparison (tools : ImageTools) (listing : ShStr) (r : Round) :
    Except Stop (ShStr × Compared) := do
  require (tools.isSource r.source)
    (Sh.lit "mapping source missing or symlinked: " ++ r.source)
  let inner := Sh.capture (escapeGlob (withoutFront 0x2f r.image))
  run (tools.mkdir r.image)
  require (tools.cat inner) (Sh.lit "cannot extract from SquashFS: " ++ r.image)
  require (tools.same r.source inner) (Sh.lit "ISO contains stale content: " ++ r.image)
  let entry ← entryLine tools listing r.image
  require (entry != []) (Sh.lit "cannot locate image entry: " ++ r.image)
  match modeToSymbolic r.mode with
  | none => .error (.fail (Sh.lit "invalid contract mode for " ++ r.image))
  | some symbolic =>
      pure (symbolic, ⟨firstWord entry, Sh.capture (secondField entry ++ [0x0a])⟩)

/-- The comparisons of a round. -/
def judge (r : Round) (symbolic : ShStr) (c : Compared) : Except Stop Unit := do
  require (c.mode == 0x2d :: symbolic) (Sh.lit "unexpected image mode for " ++ r.image)
  require (c.owner == r.owner ++ 0x2f :: r.group)
    (Sh.lit "unexpected image owner for " ++ r.image)

/-- The loop over the mappings: what it compares, and how it ends. -/
def checkMappings (tools : ImageTools) (listing : ShStr) :
    List Round → List Compared × Except Stop Unit
  | [] => ([], .ok ())
  | r :: rest =>
      match comparison tools listing r with
      | .error stop => ([], .error stop)
      | .ok (symbolic, c) =>
          match judge r symbolic c with
          | .error stop => ([c], .error stop)
          | .ok () =>
              (c :: (checkMappings tools listing rest).1, (checkMappings tools listing rest).2)

/-- `verify_squashfs` up to the end of its first loop; the answer is the listing. -/
def listRequired (tools : ImageTools) (contract : ReleaseContract) : Except Stop ShStr := do
  require tools.extracted (Sh.lit "cannot extract SquashFS")
  match tools.listing with
  | none => .error (.fail (Sh.lit "cannot list SquashFS"))
  | some listing => do
      requirePaths listing contract.requiredRecords
      pure listing

/-- `verify_squashfs`: what it compares, and how it ends. -/
def verifySquashfs (tools : ImageTools) (contract : ReleaseContract) :
    List Compared × Except Stop Unit :=
  match listRequired tools contract with
  | .error stop => ([], .error stop)
  | .ok listing => checkMappings tools listing contract.rounds

/-! ## listings -/

/-- A word of a listing. -/
structure Word where
  text : ShStr
  ne_nil : text ≠ []
  solid : ∀ b ∈ text, b ≠ 0x20 ∧ b ≠ 0x09 ∧ b ≠ 0x0a ∧ b ≠ 0
  deriving DecidableEq

/-- An entry that `unsquashfs -ll` prints; `gap` are the blanks that align the size. -/
structure Entry where
  mode : Word
  owner : Word
  gap : Nat
  size : Word
  date : Word
  time : Word
  path : ShStr
  path_line : ∀ b ∈ path, b ≠ 0x0a ∧ b ≠ 0
  deriving DecidableEq

namespace Entry

/-- What follows the owner. -/
def tail (e : Entry) : ShStr :=
  List.replicate e.gap 0x20 ++ (e.size.text ++ 0x20 :: (e.date.text ++ 0x20 ::
    (e.time.text ++ 0x20 :: rooted e.path)))

def line (e : Entry) : ShStr := e.mode.text ++ 0x20 :: (e.owner.text ++ 0x20 :: e.tail)

/-- `grep -F "squashfs-root$path"` takes the line of the entry. -/
def shows (e : Entry) (path : ShStr) : Bool := grepFixed (rooted path) e.line

end Entry

/-- The output of `unsquashfs -ll`. -/
def listingOf (entries : List Entry) : ShStr := entries.flatMap fun e => e.line ++ [0x0a]

theorem Word.not_blank (w : Word) : ∀ b ∈ w.text, isBlank b = false := by
  intro b hb
  obtain ⟨hspace, htab, -⟩ := w.solid b hb
  simp [isBlank, hspace, htab]

namespace Entry

/-- A printed line has no line feed and no NUL. -/
theorem line_solid (e : Entry) : ∀ b ∈ e.line, b ≠ 0x0a ∧ b ≠ 0 := by
  have hword : ∀ w : Word, ∀ b ∈ w.text, b ≠ 0x0a ∧ b ≠ 0 := fun w b hb => (w.solid b hb).2.2
  have hroot : ∀ b ∈ Sh.lit "squashfs-root", b ≠ 0x0a ∧ b ≠ 0 := by
    have hall : (Sh.lit "squashfs-root").all (fun b => b != 0x0a && b != 0) = true := by decide
    simpa using hall
  intro b hb
  simp only [line, tail, rooted, List.mem_append, List.mem_cons, List.mem_replicate] at hb
  rcases hb with hb | rfl | hb | rfl | ⟨-, rfl⟩ | hb | rfl | hb | rfl | hb | rfl | hb | hb
  · exact hword _ b hb
  · decide
  · exact hword _ b hb
  · decide
  · decide
  · exact hword _ b hb
  · decide
  · exact hword _ b hb
  · decide
  · exact hword _ b hb
  · decide
  · exact hroot b hb
  · exact e.path_line b hb

/-- The first word of a line is the mode. -/
theorem firstWord_line (e : Entry) : firstWord e.line = e.mode.text :=
  firstWord_append e.mode.not_blank

/-- The second field of a line is the owner. -/
theorem secondField_line (e : Entry) : secondField e.line = e.owner.text := by
  rw [secondField, line, fields_append e.mode.ne_nil e.mode.not_blank,
    fields_append e.owner.ne_nil e.owner.not_blank]
  rfl

/-- An entry is found under its own path. -/
theorem shows_path (e : Entry) : e.shows e.path = true := by
  have hroot : (0x0a : UInt8) ∉ rooted e.path := by
    rw [rooted, List.mem_append]
    rintro (h | h)
    · revert h
      decide
    · exact (e.path_line _ h).1 rfl
  rw [shows, grepFixed, List.splitOn_eq_singleton hroot, List.any_cons, List.any_nil, Bool.or_false,
    decide_eq_true_eq]
  exact ⟨e.mode.text ++ 0x20 :: (e.owner.text ++ 0x20 :: (List.replicate e.gap 0x20 ++
    (e.size.text ++ 0x20 :: (e.date.text ++ 0x20 :: (e.time.text ++ [0x20]))))), [],
    by simp [line, tail]⟩

end Entry

/-- The lines of the listing are the lines of its entries. -/
theorem fileLines_listingOf (entries : List Entry) :
    fileLines (listingOf entries) = entries.map Entry.line :=
  fileLines_flatMap fun e _ h => (e.line_solid _ h).1 rfl

/-! ## what the search finds -/

/-- The lines with the path that `grep` prints. -/
def printed (isText : ShStr → Bool) (entries : List Entry) (path : ShStr) : List Entry :=
  entries.filter fun e => e.shows path && isText e.line

/-- All records of the path stand in lines, and none is the entry of the path. -/
def Shadowed (entries : List Entry) (path : ShStr) : Prop :=
  (∀ piece ∈ path.splitOn 0, ∃ e ∈ entries, e.shows piece = true) ∧
    ∀ e ∈ entries, e.path ≠ path

/-- The first line that is printed for `image` has another mode or owner than the entries
of `path`. -/
def Misled (isText : ShStr → Bool) (entries : List Entry) (image path : ShStr) : Prop :=
  ∃ e others, printed isText entries image = e :: others ∧
    ∀ x ∈ entries, x.path = path → ¬ (x.mode.text = e.mode.text ∧ x.owner.text = e.owner.text)

/-- The line that a round finds has the mode and the owner of the contract. -/
def Accepted (isText : ShStr → Bool) (entries : List Entry) (r : Round) : Prop :=
  ∃ e others symbolic, printed isText entries r.image = e :: others ∧
    modeToSymbolic r.mode = some symbolic ∧ e.mode.text = 0x2d :: symbolic ∧
    e.owner.text = r.owner ++ 0x2f :: r.group

/-- The contract lets the check come to the comparisons of round `i`: the required paths are
found, the rounds before it pass, and its mode is one. -/
structure Reaches (isText : ShStr → Bool) (entries : List Entry) (contract : ReleaseContract)
    (i : Nat) (r : Round) : Prop where
  round : contract.rounds[i]? = some r
  required : ∀ piece ∈ contract.requiredRecords, ∃ e ∈ entries, e.shows piece = true
  earlier : ∀ r' ∈ contract.rounds.take i, Accepted isText entries r'
  mode : (modeToSymbolic r.mode).isSome = true

/-- The tools list these entries. -/
structure Lists (tools : ImageTools) (isText : ShStr → Bool) (entries : List Entry) : Prop where
  extracted : tools.extracted = true
  listing : tools.listing = some (listingOf entries)
  isText : tools.isText = isText

/-- **The check looks at the entries themselves.**  The loop over the required paths passes
if and only if each of them is the path of an entry, and what is compared for the `i`-th
mapping are the mode and the owner of the entry of its path. -/
structure LooksAtEntries (isText : ShStr → Bool) (entries : List Entry)
    (contract : ReleaseContract) : Prop where
  present : ∀ tools, Lists tools isText entries →
    ((∀ path, (verifySquashfs tools contract).2 ≠ .error (.fail (missing path))) ↔
      ∀ path ∈ contract.required, ∃ e ∈ entries, e.path = path)
  compared : ∀ tools, Lists tools isText entries → ∀ (i : Nat) m c,
    contract.exact[i]? = some m → (verifySquashfs tools contract).1[i]? = some c →
      ∃ e ∈ entries, e.path = m.image ∧ e.mode.text = c.mode ∧ e.owner.text = c.owner

/-! ### the required paths -/

theorem requirePaths_ok_iff {entries : List Entry} {paths : List ShStr} :
    requirePaths (listingOf entries) paths = .ok () ↔
      ∀ path ∈ paths, ∃ e ∈ entries, e.shows path = true := by
  simp only [requirePaths, forM_ok_iff, require_ok_iff, fileLines_listingOf, List.any_map,
    List.any_eq_true, Function.comp_apply, Entry.shows]

/-- The loop over the required paths stops with a missing path only. -/
theorem requirePaths_error {listing : ShStr} {paths : List ShStr} {stop : Stop}
    (h : requirePaths listing paths = .error stop) : ∃ path, stop = .fail (missing path) := by
  obtain ⟨path, -, hpath⟩ := exists_of_forM_error h
  exact ⟨path, (require_error_iff.mp hpath).2⟩

/-- On a listing the required paths are looked for, and nothing else is done. -/
theorem listRequired_eq {tools : ImageTools} {isText : ShStr → Bool} {entries : List Entry}
    (h : Lists tools isText entries) (contract : ReleaseContract) :
    listRequired tools contract = (do
      requirePaths (listingOf entries) contract.requiredRecords
      pure (listingOf entries)) := by
  rw [listRequired, h.extracted, h.listing]
  rfl

/-- A part of the check that reports no required path. -/
def Quiet {α : Type} (x : Except Stop α) : Prop := ∀ path, x ≠ .error (.fail (missing path))

theorem Quiet.ok {α : Type} (a : α) : Quiet (Except.ok a) := fun _ h => by contradiction

theorem Quiet.bind {α β : Type} {x : Except Stop α} {f : α → Except Stop β} (hx : Quiet x)
    (hf : ∀ a, Quiet (f a)) : Quiet (x >>= f) := by
  intro path h
  rcases bind_error_iff.mp h with h | ⟨a, -, h⟩
  · exact hx path h
  · exact hf a path h

/-- A message that starts with another letter is not about a required path. -/
theorem Quiet.fail {α : Type} {word x : ShStr} {b : UInt8} (hword : word.head? = some b)
    (hb : b ≠ 0x72) : Quiet (.error (.fail (word ++ x)) : Except Stop α) := by
  intro path h
  have hhead := congrArg List.head? (Stop.fail.inj (Except.error.inj h))
  have hmissing : (missing path).head? = some 0x72 := rfl
  rw [hmissing, List.head?_append, hword] at hhead
  exact hb (Option.some.inj hhead)

/-- A message that is not that of a missing path. -/
theorem Quiet.require {condition : Bool} {word x : ShStr} {b : UInt8}
    (hword : word.head? = some b) (hb : b ≠ 0x72) : Quiet (require condition (word ++ x)) := by
  cases condition with
  | true => exact .ok ()
  | false => exact .fail hword hb

theorem Quiet.errexit {α : Type} (status : Nat) :
    Quiet (.error (.errexit status) : Except Stop α) := fun _ h => by cases h

/-- Finding the line of an entry reports no missing path. -/
theorem quiet_entryLine (tools : ImageTools) (listing image : ShStr) :
    Quiet (entryLine tools listing image) := by
  simp only [entryLine]
  split
  · exact .errexit 1
  · split
    · exact .errexit 141
    · exact .ok _

/-- Nor does its comparison. -/
theorem quiet_comparison (tools : ImageTools) (listing : ShStr) (r : Round) :
    Quiet (comparison tools listing r) := by
  refine .bind (.require rfl (by decide)) fun _ => .bind ?_ fun _ =>
    .bind (.require rfl (by decide)) fun _ => .bind (.require rfl (by decide)) fun _ =>
    .bind (quiet_entryLine tools listing r.image) fun _ =>
    .bind (.require rfl (by decide)) fun _ => ?_
  · rw [run]
    split
    · exact .ok ()
    · exact .errexit _
  · split
    · exact .fail rfl (by decide)
    · exact .ok _

/-- Nor does the judgement. -/
theorem quiet_judge (r : Round) (symbolic : ShStr) (c : Compared) : Quiet (judge r symbolic c) :=
  .bind (.require rfl (by decide)) fun _ => .require rfl (by decide)

/-- Nor do all rounds together. -/
theorem quiet_checkMappings (tools : ImageTools) (listing : ShStr) (rs : List Round) :
    Quiet (checkMappings tools listing rs).2 := by
  induction rs with
  | nil => exact .ok ()
  | cons r rest ih =>
      rw [checkMappings]
      split
      · next stop h =>
          intro path heq
          exact quiet_comparison tools listing r path (h.trans (congrArg _ (Except.error.inj heq)))
      · split
        · next stop h =>
            intro path heq
            exact quiet_judge r _ _ path (h.trans (congrArg _ (Except.error.inj heq)))
        · exact ih

/-- The loop over the required paths is the part of the check that misses one. -/
theorem not_missing_iff {tools : ImageTools} {isText : ShStr → Bool} {entries : List Entry}
    (h : Lists tools isText entries) (contract : ReleaseContract) :
    (∀ path, (verifySquashfs tools contract).2 ≠ .error (.fail (missing path))) ↔
      ∀ piece ∈ contract.requiredRecords, ∃ e ∈ entries, e.shows piece = true := by
  rw [← requirePaths_ok_iff, verifySquashfs, listRequired_eq h]
  cases hloop : requirePaths (listingOf entries) contract.requiredRecords with
  | error stop =>
      obtain ⟨path, rfl⟩ := requirePaths_error hloop
      refine iff_of_false (fun hne => hne path ?_) (by simp)
      rfl
  | ok =>
      refine iff_of_true (fun path => ?_) rfl
      exact quiet_checkMappings tools (listingOf entries) contract.rounds path

/-- The records of the required paths. -/
theorem forall_requiredRecords {contract : ReleaseContract} {p : ShStr → Prop} :
    (∀ piece ∈ contract.requiredRecords, p piece) ↔
      ∀ path ∈ contract.required, ∀ piece ∈ path.splitOn 0, p piece := by
  simp only [ReleaseContract.requiredRecords, records_nulTerminated, List.mem_flatMap]
  constructor
  · exact fun h path hpath piece hpiece => h piece ⟨path, hpath, hpiece⟩
  · rintro h piece ⟨path, hpath, hpiece⟩
    exact h path hpath piece hpiece

theorem required_iff {entries : List Entry} {contract : ReleaseContract} :
    ((∀ piece ∈ contract.requiredRecords, ∃ e ∈ entries, e.shows piece = true) ↔
        ∀ path ∈ contract.required, ∃ e ∈ entries, e.path = path) ↔
      (∃ piece ∈ contract.requiredRecords, ∀ e ∈ entries, e.shows piece = false) ∨
        ∀ path ∈ contract.required, ¬ Shadowed entries path := by
  have hown : (∀ path ∈ contract.required, ∃ e ∈ entries, e.path = path) →
      ∀ piece ∈ contract.requiredRecords, ∃ e ∈ entries, e.shows piece = true := by
    intro h
    rw [forall_requiredRecords]
    intro path hpath piece hpiece
    obtain ⟨e, he, rfl⟩ := h path hpath
    rw [List.splitOn_eq_singleton fun hnul => (e.path_line 0 hnul).2 rfl, List.mem_singleton]
      at hpiece
    exact ⟨e, he, by rw [hpiece, e.shows_path]⟩
  by_cases hall : ∀ piece ∈ contract.requiredRecords, ∃ e ∈ entries, e.shows piece = true
  · have hnone : ¬ ∃ piece ∈ contract.requiredRecords, ∀ e ∈ entries, e.shows piece = false := by
      rintro ⟨piece, hpiece, hfalse⟩
      obtain ⟨e, he, hshows⟩ := hall piece hpiece
      rw [hfalse e he] at hshows
      contradiction
    rw [or_iff_right hnone, iff_true_left hall]
    refine forall₂_congr fun path hpath => ?_
    have hshown := forall_requiredRecords.mp hall path hpath
    rw [Shadowed, not_and, forall_prop_of_true hshown]
    push Not
    rfl
  · refine iff_of_true ⟨fun h => absurd h hall, fun h => absurd (hown h) hall⟩ (.inl ?_)
    push Not at hall
    obtain ⟨piece, hpiece, hnone⟩ := hall
    exact ⟨piece, hpiece, fun e he => Bool.not_eq_true _ ▸ hnone e he⟩

/-! ### the comparisons -/

/-- The source and the extracted file of a round are there and equal. -/
structure Prepared (tools : ImageTools) (r : Round) : Prop where
  source : tools.isSource r.source = true
  mkdir : tools.mkdir r.image = 0
  cat : tools.cat (Sh.capture (escapeGlob (withoutFront 0x2f r.image))) = true
  same : tools.same r.source (Sh.capture (escapeGlob (withoutFront 0x2f r.image))) = true

/-- The line that a round takes is the first that `grep` prints, if `grep` gets to write all
of them. -/
theorem entryLine_ok_iff {tools : ImageTools} {isText : ShStr → Bool} {entries : List Entry}
    (h : Lists tools isText entries) {image line : ShStr} (hne : line ≠ []) :
    entryLine tools (listingOf entries) image = .ok line ↔
      ∃ e others, printed isText entries image = e :: others ∧
        (tools.headLeft image = true → others = []) ∧ e.line = line := by
  have hhits : (fileLines (listingOf entries)).filter (grepFixed (rooted image)) =
      (entries.filter fun e => e.shows image).map Entry.line := by
    rw [fileLines_listingOf, List.filter_map]
    rfl
  have hprinted : ((entries.filter fun e => e.shows image).map Entry.line).filter isText =
      (printed isText entries image).map Entry.line := by
    rw [List.filter_map, List.filter_filter, printed]
    simp only [Bool.and_comm, Function.comp_def]
  simp only [entryLine, hhits, h.isText, hprinted, List.length_map]
  cases hlines : printed isText entries image with
  | nil =>
      refine iff_of_false (fun hok => ?_) (by simp)
      split at hok
      · contradiction
      · split at hok
        · contradiction
        · exact hne (Except.ok.inj hok).symm
  | cons e others =>
      have hhit : e ∈ entries.filter fun e => e.shows image := by
        have hmem : e ∈ printed isText entries image := by rw [hlines]; exact List.mem_cons_self
        rw [printed, List.mem_filter, Bool.and_eq_true] at hmem
        exact List.mem_filter.mpr ⟨hmem.1, hmem.2.1⟩
      have hsome : ¬ (entries.filter fun e => e.shows image).map Entry.line = [] :=
        List.ne_nil_of_mem (List.mem_map_of_mem hhit)
      have htake : ((e :: others).map Entry.line).take 1 = [e.line] := rfl
      rw [if_neg hsome, htake, List.flatMap_singleton, capture_line e.line_solid]
      constructor
      · intro hok
        split at hok
        · contradiction
        · next hleft =>
            refine ⟨e, others, rfl, fun hhead => ?_, Except.ok.inj hok⟩
            rw [hhead, Bool.true_and, decide_eq_true_eq, List.length_cons] at hleft
            exact List.length_eq_zero_iff.mp (by omega)
      · rintro ⟨e', others', heq, hleft, rfl⟩
        cases heq
        have hkeep : ¬ (tools.headLeft image && decide (1 < (e :: others).length)) = true := by
          cases hhead : tools.headLeft image with
          | false => simp
          | true => simp [hleft hhead]
        rw [if_neg hkeep]

/-- A round gets to its comparisons when its file is the same, its mode is one, and a line
with its path is printed. -/
theorem comparison_ok_iff {tools : ImageTools} {isText : ShStr → Bool} {entries : List Entry}
    (h : Lists tools isText entries) {r : Round} {symbolic : ShStr} {c : Compared} :
    comparison tools (listingOf entries) r = .ok (symbolic, c) ↔
      Prepared tools r ∧ modeToSymbolic r.mode = some symbolic ∧
        ∃ e others, printed isText entries r.image = e :: others ∧
          (tools.headLeft r.image = true → others = []) ∧ c = ⟨e.mode.text, e.owner.text⟩ := by
  have howner : ∀ e : Entry, Sh.capture (e.owner.text ++ [0x0a]) = e.owner.text := fun e =>
    capture_line fun b hb => (e.owner.solid b hb).2.2
  rw [comparison, require_bind_ok_iff]
  simp only [run_bind_ok_iff, require_bind_ok_iff]
  rw [bind_ok_iff]
  simp only [require_bind_ok_iff, bne_iff_ne, ne_eq]
  constructor
  · rintro ⟨hsource, hmkdir, hcat, hsame, entry, hentry, hne, hmode⟩
    obtain ⟨e, others, hprinted, hleft, rfl⟩ := (entryLine_ok_iff h hne).mp hentry
    refine ⟨⟨hsource, hmkdir, hcat, hsame⟩, ?_⟩
    cases hsymbolic : modeToSymbolic r.mode with
    | none =>
        rw [hsymbolic] at hmode
        contradiction
    | some symbolic' =>
        rw [hsymbolic, e.firstWord_line, e.secondField_line, howner] at hmode
        cases hmode
        exact ⟨rfl, e, others, hprinted, hleft, rfl⟩
  · rintro ⟨hprepared, hmode, e, others, hprinted, hleft, rfl⟩
    have hne : e.line ≠ [] := by simp [Entry.line]
    refine ⟨hprepared.source, hprepared.mkdir, hprepared.cat, hprepared.same, e.line,
      (entryLine_ok_iff h hne).mpr ⟨e, others, hprinted, hleft, rfl⟩, hne, ?_⟩
    rw [hmode, e.firstWord_line, e.secondField_line, howner]
    rfl

/-- A round passes where the mode and the owner are those of the mapping. -/
theorem judge_ok_iff {r : Round} {symbolic : ShStr} {c : Compared} :
    judge r symbolic c = .ok () ↔
      c.mode = 0x2d :: symbolic ∧ c.owner = r.owner ++ 0x2f :: r.group := by
  rw [judge, require_bind_ok_iff, require_ok_iff, beq_iff_eq, beq_iff_eq]

/-- A round passes. -/
def Passes (tools : ImageTools) (listing : ShStr) (r : Round) : Prop :=
  ∃ symbolic c, comparison tools listing r = .ok (symbolic, c) ∧ judge r symbolic c = .ok ()

/-- What the loop compares in round `i`: it gets there if the rounds before pass. -/
theorem checkMappings_getElem?_iff {tools : ImageTools} {listing : ShStr} {rs : List Round}
    {i : Nat} {c : Compared} :
    (checkMappings tools listing rs).1[i]? = some c ↔
      (∀ r ∈ rs.take i, Passes tools listing r) ∧
        ∃ r symbolic, rs[i]? = some r ∧ comparison tools listing r = .ok (symbolic, c) := by
  induction rs generalizing i with
  | nil => simp [checkMappings]
  | cons r rest ih =>
      rw [checkMappings]
      cases hcomparison : comparison tools listing r with
      | error stop =>
          have hstuck : ¬ Passes tools listing r := by
            rintro ⟨symbolic, c, hok, -⟩
            rw [hcomparison] at hok
            contradiction
          refine iff_of_false (by simp) ?_
          rintro ⟨hearlier, r', symbolic, hr', hok⟩
          cases i with
          | zero =>
              rw [List.getElem?_cons_zero, Option.some.injEq] at hr'
              rw [← hr', hcomparison] at hok
              contradiction
          | succ i => exact hstuck (hearlier r (by simp))
      | ok answer =>
          obtain ⟨symbolic, first⟩ := answer
          have hpasses : Passes tools listing r ↔ judge r symbolic first = .ok () := by
            simp [Passes, hcomparison]
          simp only
          cases i with
          | zero => cases hjudge : judge r symbolic first <;> simp [hcomparison]
          | succ i =>
              rw [List.take_succ_cons, List.forall_mem_cons, List.getElem?_cons_succ, hpasses]
              cases hjudge : judge r symbolic first with
              | error stop => simp
              | ok => simpa using ih

/-- What passes is accepted by some entry. -/
theorem Passes.accepted {tools : ImageTools} {isText : ShStr → Bool} {entries : List Entry}
    (h : Lists tools isText entries) {r : Round} (hpass : Passes tools (listingOf entries) r) :
    Accepted isText entries r := by
  obtain ⟨symbolic, c, hcomparison, hjudge⟩ := hpass
  obtain ⟨-, hmode, e, others, hprinted, -, rfl⟩ := (comparison_ok_iff h).mp hcomparison
  obtain ⟨hemode, heowner⟩ := judge_ok_iff.mp hjudge
  exact ⟨e, others, symbolic, hprinted, hmode, hemode, heowner⟩

/-- What is compared in a round of the whole check. -/
theorem verifySquashfs_getElem?_iff {tools : ImageTools} {isText : ShStr → Bool}
    {entries : List Entry} (h : Lists tools isText entries) {contract : ReleaseContract} {i : Nat}
    {c : Compared} :
    (verifySquashfs tools contract).1[i]? = some c ↔
      (∀ piece ∈ contract.requiredRecords, ∃ e ∈ entries, e.shows piece = true) ∧
        (checkMappings tools (listingOf entries) contract.rounds).1[i]? = some c := by
  rw [← requirePaths_ok_iff, verifySquashfs, listRequired_eq h]
  cases hloop : requirePaths (listingOf entries) contract.requiredRecords with
  | error stop => exact iff_of_false (by simp [bind, Except.bind]) (by simp)
  | ok => simp [bind, Except.bind, pure, Except.pure]

/-- Tools that find nothing amiss. -/
def calmTools (isText : ShStr → Bool) (entries : List Entry) : ImageTools where
  extracted := true
  listing := some (listingOf entries)
  isSource _ := true
  mkdir _ := 0
  cat _ := true
  same _ _ := true
  isText := isText
  headLeft _ := false

/-- The tools of the witness print the entries. -/
theorem calmTools_lists (isText : ShStr → Bool) (entries : List Entry) :
    Lists (calmTools isText entries) isText entries := ⟨rfl, rfl, rfl⟩

/-- With them a round gets to its comparisons when a line with its path is printed. -/
theorem calm_comparison {isText : ShStr → Bool} {entries : List Entry} {r : Round}
    {symbolic : ShStr} {e : Entry} {others : List Entry}
    (hprinted : printed isText entries r.image = e :: others)
    (hmode : modeToSymbolic r.mode = some symbolic) :
    comparison (calmTools isText entries) (listingOf entries) r =
      .ok (symbolic, ⟨e.mode.text, e.owner.text⟩) :=
  (comparison_ok_iff (calmTools_lists isText entries)).mpr
    ⟨⟨rfl, rfl, rfl, rfl⟩, hmode, e, others, hprinted, by intros; contradiction, rfl⟩

/-- With such tools what is accepted passes. -/
theorem Accepted.passes {isText : ShStr → Bool} {entries : List Entry} {r : Round}
    (h : Accepted isText entries r) :
    Passes (calmTools isText entries) (listingOf entries) r := by
  obtain ⟨e, others, symbolic, hprinted, hmode, hemode, heowner⟩ := h
  exact ⟨symbolic, _, calm_comparison hprinted hmode, judge_ok_iff.mpr ⟨hemode, heowner⟩⟩

/-- **The image check looks at the entries themselves** exactly where no other line stands in
their place. -/
theorem looksAtEntries_iff (isText : ShStr → Bool) (entries : List Entry)
    (contract : ReleaseContract) :
    LooksAtEntries isText entries contract ↔
      ((∃ piece ∈ contract.requiredRecords, ∀ e ∈ entries, e.shows piece = false) ∨
        ∀ path ∈ contract.required, ¬ Shadowed entries path) ∧
      ∀ (i : Nat) m r, contract.exact[i]? = some m → Reaches isText entries contract i r →
        ¬ Misled isText entries r.image m.image := by
  constructor
  · intro h
    have hcalm := calmTools_lists isText entries
    refine ⟨required_iff.mp ((not_missing_iff hcalm contract).symm.trans (h.present _ hcalm)), ?_⟩
    rintro i m r hm hreaches ⟨e, others, hprinted, hother⟩
    obtain ⟨symbolic, hmode⟩ := Option.isSome_iff_exists.mp hreaches.mode
    have hcompared := (verifySquashfs_getElem?_iff hcalm).mpr ⟨hreaches.required,
      checkMappings_getElem?_iff.mpr ⟨fun r' hr' => (hreaches.earlier r' hr').passes,
        r, symbolic, hreaches.round, calm_comparison hprinted hmode⟩⟩
    obtain ⟨x, hx, hpath, hsame⟩ := h.compared _ hcalm i m _ hm hcompared
    exact hother x hx hpath hsame
  · rintro ⟨hrequired, hmappings⟩
    refine ⟨fun tools htools => (not_missing_iff htools contract).trans
      (required_iff.mpr hrequired), fun tools htools i m c hm hcompared => ?_⟩
    obtain ⟨hshown, hround⟩ := (verifySquashfs_getElem?_iff htools).mp hcompared
    obtain ⟨hearlier, r, symbolic, hr, hcomparison⟩ := checkMappings_getElem?_iff.mp hround
    obtain ⟨-, hmode, e, others, hprinted, -, rfl⟩ := (comparison_ok_iff htools).mp hcomparison
    have hreaches : Reaches isText entries contract i r :=
      ⟨hr, hshown, fun r' hr' => (hearlier r' hr').accepted htools, by rw [hmode]; rfl⟩
    by_contra hother
    push Not at hother
    refine hmappings i m r hm hreaches ⟨e, others, hprinted, ?_⟩
    rintro x hx hpath ⟨hmode, howner⟩
    exact hother x hx hpath hmode howner

/-! ### a verified image -/

/-- The round of a mapping whose texts have no NUL. -/
def Mapping.round (m : Mapping) : Round := ⟨m.source, m.image, m.mode, m.owner, m.group⟩

theorem roundsOf_fields {ms : List Mapping} (h : ∀ m ∈ ms, ∀ field ∈ m.fields, 0 ∉ field) :
    roundsOf (records (nulTerminated (ms.flatMap Mapping.fields))) = ms.map Mapping.round := by
  rw [records_nulTerminated]
  induction ms with
  | nil => rfl
  | cons m ms ih =>
      have hfields : m.fields.flatMap (fun field => field.splitOn 0) = m.fields := by
        have hsingle : ∀ field ∈ m.fields, field.splitOn 0 = [field] := fun field hfield =>
          List.splitOn_eq_singleton (h m List.mem_cons_self field hfield)
        rw [List.flatMap_congr hsingle, List.flatMap_singleton']
      rw [List.flatMap_cons, List.flatMap_append, hfields, List.map_cons,
        ← ih fun m' hm' => h m' (List.mem_cons_of_mem m hm')]
      rfl

/-- If no round stops the script, all of them pass. -/
theorem checkMappings_ok {tools : ImageTools} {listing : ShStr} {rs : List Round}
    (h : (checkMappings tools listing rs).2 = .ok ()) : ∀ r ∈ rs, Passes tools listing r := by
  induction rs with
  | nil => simp
  | cons r rest ih =>
      rw [checkMappings] at h
      split at h
      · contradiction
      · next symbolic c hcomparison =>
          split at h
          · contradiction
          · next hjudge =>
              exact List.forall_mem_cons.mpr ⟨⟨symbolic, c, hcomparison, hjudge⟩, ih h⟩

/-- What a verified image has, where no other line stands in the place of an entry. -/
theorem verifySquashfs_ok {tools : ImageTools} {isText : ShStr → Bool} {entries : List Entry}
    {contract : ReleaseContract} (hlists : Lists tools isText entries)
    (hentries : LooksAtEntries isText entries contract)
    (htexts : ∀ m ∈ contract.exact, ∀ field ∈ m.fields, 0 ∉ field)
    (h : (verifySquashfs tools contract).2 = .ok ()) :
    (∀ path ∈ contract.required, ∃ e ∈ entries, e.path = path) ∧
      ∀ m ∈ contract.exact, Prepared tools m.round ∧ ∃ e ∈ entries, e.path = m.image ∧
        (modeToSymbolic m.mode).map (0x2d :: ·) = some e.mode.text ∧
        e.owner.text = m.owner ++ 0x2f :: m.group := by
  have hfound : ∀ path, (verifySquashfs tools contract).2 ≠ .error (.fail (missing path)) :=
    fun path => by simp [h]
  refine ⟨(hentries.present tools hlists).mp hfound, fun m hm => ?_⟩
  have hshown := (not_missing_iff hlists contract).mp hfound
  have hpasses : ∀ r ∈ contract.rounds, Passes tools (listingOf entries) r := by
    refine checkMappings_ok ?_
    have hloop := requirePaths_ok_iff.mpr hshown
    rwa [verifySquashfs, listRequired_eq hlists, hloop] at h
  have hrounds : contract.rounds = contract.exact.map Mapping.round := roundsOf_fields htexts
  obtain ⟨i, hi⟩ := List.mem_iff_getElem?.mp hm
  obtain ⟨symbolic, c, hcomparison, hjudge⟩ :=
    hpasses m.round (by rw [hrounds]; exact List.mem_map_of_mem hm)
  have hcompared : (verifySquashfs tools contract).1[i]? = some c := by
    refine (verifySquashfs_getElem?_iff hlists).mpr ⟨hshown, checkMappings_getElem?_iff.mpr
      ⟨fun r hr => hpasses r (List.mem_of_mem_take hr), m.round, symbolic, ?_, hcomparison⟩⟩
    rw [hrounds, List.getElem?_map, hi]
    rfl
  obtain ⟨e, he, hpath, hemode, heowner⟩ := hentries.compared tools hlists i m c hi hcompared
  obtain ⟨hprepared, hmode, -⟩ := (comparison_ok_iff hlists).mp hcomparison
  obtain ⟨hcmode, hcowner⟩ := judge_ok_iff.mp hjudge
  have hmode' : modeToSymbolic m.mode = some symbolic := hmode
  exact ⟨hprepared, e, he, hpath, by rw [hmode', hemode, hcmode]; rfl,
    by rw [heowner, hcowner]; rfl⟩

/-! ## an image -/

/-- A word of lower-case letters and the like. -/
def Word.ofString (s : String) (h : (Sh.lit s != [] && (Sh.lit s).all fun b =>
    b != 0x20 && b != 0x09 && b != 0x0a && b != 0) = true) : Word where
  text := Sh.lit s
  ne_nil := by
    rw [Bool.and_eq_true, bne_iff_ne] at h
    exact h.1
  solid b hb := by
    rw [Bool.and_eq_true, List.all_eq_true] at h
    have hsolid := h.2 b hb
    simp only [Bool.and_eq_true, bne_iff_ne, and_assoc] at hsolid
    exact hsolid

/-- A backup of the launcher. -/
def launchBackup : Entry where
  mode := .ofString "-rwxr-xr-x" (by decide)
  owner := .ofString "root/root" (by decide)
  gap := 3
  size := .ofString "812" (by decide)
  date := .ofString "2026-01-01" (by decide)
  time := .ofString "00:00" (by decide)
  path := Sh.lit "/usr/local/bin/sushida-launch.orig"
  path_line := by
    refine fun b hb => ?_
    have hall := List.all_eq_true.mp (by decide : (Sh.lit "/usr/local/bin/sushida-launch.orig").all
      (fun b => b != 0x0a && b != 0) = true) b hb
    simpa using hall

/-- A contract that requires the launcher. -/
def launchContract : ReleaseContract where
  requiredIsoPaths := [⟨Sh.lit "/usr/local/bin/sushida-launch", Sh.lit "squashfs"⟩]
  sourceImageMappings := []

/-- The text of the locale `C.UTF-8`. -/
def utf8Text (line : ShStr) : Bool := (Utf8.decodeStrict line).isSome

/-- The launcher is missing, and its backup is taken for it. -/
theorem backup_is_taken : ¬ LooksAtEntries utf8Text [launchBackup] launchContract := by
  intro h
  have hcalm := calmTools_lists utf8Text [launchBackup]
  have hfound : ∀ path, (verifySquashfs (calmTools utf8Text [launchBackup]) launchContract).2 ≠
      .error (.fail (missing path)) := by
    rw [not_missing_iff hcalm, forall_requiredRecords]
    intro path hpath piece hpiece
    have hpath' : path = Sh.lit "/usr/local/bin/sushida-launch" := by
      simpa [ReleaseContract.required, launchContract] using hpath
    rw [hpath', List.splitOn_eq_singleton (by decide), List.mem_singleton] at hpiece
    exact ⟨launchBackup, List.mem_singleton_self _, by rw [hpiece]; decide +kernel⟩
  obtain ⟨e, he, hpath⟩ := (h.present _ hcalm).mp hfound
    (Sh.lit "/usr/local/bin/sushida-launch") (by decide)
  rw [List.mem_singleton.mp he] at hpath
  revert hpath
  decide

end Release

end SushidaOs
