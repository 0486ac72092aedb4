import SushidaOs.Decimal
import SushidaOs.Paths
import SushidaOs.Release.Strict

/-!
# SushidaOs.Release.Extract

The extraction helpers of `scripts/lib/iso-extract.sh`, and the directories that
`scripts/verify-iso.sh` makes for the files it compares.

The command a helper runs writes below the scratch directory and reads below the
root of the image (`Invocation.Confined`); both follow from what the guards of the
helper refuse in a path, by the general facts of `SushidaOs.Paths`.  The
directories are made before a helper has seen the path: there the schema of the
contract is the guard.
-/

namespace SushidaOs

namespace Release

/-- Paths of the shell. -/
def shPaths : PathChars UInt8 where
  slash := 0x2f
  dot := 0x2e

/-! ## the helpers -/

/-- What the helpers work with. -/
structure Scratch where
  /-- `ISO_SCRATCH_ROOT` -/
  root : ShStr
  root_string : 0 ∉ root
  /-- `_iso_require_regular_input` -/
  isRegularInput : ShStr → Bool

/-- A command with the files its output goes to. -/
structure Invocation where
  words : List ShStr
  stdout : ShStr
  log : Option ShStr
  deriving DecidableEq, Repr

/-- `_iso_require_scratch_dest` -/
def isoRequireScratchDest (root dest : ShStr) : Bool :=
  root != [] && Sh.globMatches [.word (root ++ [0x2f]), .star] dest &&
    !Sh.globMatches [.star, .word (Sh.lit ".."), .star] dest

/-- `_iso_safe_inner_path` -/
def isoSafeInnerPath (inner : ShStr) : Bool :=
  inner != [] && !Sh.globMatches [.star, .word (Sh.lit "/../"), .star] (0x2f :: inner ++ [0x2f])

/-- `case "$inner" in /*)` -/
def isAbsolute (inner : ShStr) : Bool := Sh.globMatches [.word [0x2f], .star] inner

/-- A helper that writes `dest`. -/
def writing (S : Scratch) (input dest : ShStr) (command : Invocation) : Option Invocation :=
  if S.isRegularInput input && isoRequireScratchDest S.root dest then some command else none

/-- A helper that reads `inner` from the image. -/
def extracting (S : Scratch) (absolute : Bool) (input inner dest : ShStr) (command : Invocation) :
    Option Invocation :=
  if S.isRegularInput input && isAbsolute inner == absolute && isoSafeInnerPath inner &&
      isoRequireScratchDest S.root dest then some command
  else none

/-- `$ISO_SCRATCH_ROOT/xorriso.log` -/
def xorrisoLog (S : Scratch) : ShStr := S.root ++ Sh.lit "/xorriso.log"

/-- `iso_list_files` -/
def isoListFiles (S : Scratch) (iso out : ShStr) : Option Invocation :=
  writing S iso out
    { words := [Sh.lit "xorriso", Sh.lit "-indev", iso, Sh.lit "-find", Sh.lit "/",
        Sh.lit "-type", Sh.lit "f", Sh.lit "-exec", Sh.lit "echo"]
      stdout := out
      log := some (xorrisoLog S) }

/-- `iso_report_system_area` -/
def isoReportSystemArea (S : Scratch) (iso out : ShStr) : Option Invocation :=
  writing S iso out
    { words := [Sh.lit "xorriso", Sh.lit "-indev", iso, Sh.lit "-report_system_area",
        Sh.lit "plain"]
      stdout := out
      log := some (xorrisoLog S) }

/-- `iso_extract_file` -/
def isoExtractFile (S : Scratch) (iso inner dest : ShStr) : Option Invocation :=
  extracting S true iso inner dest
    { words := [Sh.lit "xorriso", Sh.lit "-osirrox", Sh.lit "on", Sh.lit "-indev", iso,
        Sh.lit "-extract", inner, dest]
      stdout := Sh.lit "/dev/null"
      log := some (xorrisoLog S) }

/-- `squashfs_list` -/
def squashfsList (S : Scratch) (squashfs out : ShStr) : Option Invocation :=
  writing S squashfs out
    { words := [Sh.lit "unsquashfs", Sh.lit "-ll", squashfs]
      stdout := out
      log := none }

/-- `squashfs_cat` -/
def squashfsCat (S : Scratch) (squashfs inner dest : ShStr) : Option Invocation :=
  extracting S false squashfs inner dest
    { words := [Sh.lit "unsquashfs", Sh.lit "-cat", squashfs, inner]
      stdout := dest
      log := none }

/-! ## the scratch directory -/

/-- `''|*/*|*..*|.*` -/
def badPrefixes : List (List Sh.Glob) :=
  [ [],
    [.star, .word (Sh.lit "/"), .star],
    [.star, .word (Sh.lit ".."), .star],
    [.word (Sh.lit "."), .star] ]

/-- `$_ISO_SCRATCH_PARENT/$prefix.$$` -/
def scratchRoot (parent pre : ShStr) (pid : Nat) : ShStr :=
  parent ++ 0x2f :: pre ++ 0x2e :: Utf8.asciiBytes (PyStr.ofNat pid)

/-- `iso_scratch_init`, the path it chooses.  `printed` is what `pwd -P` prints in the
parent, and `taken` says that there is a file. -/
def isoScratchInit (parentIsDirectory : Bool) (printed : List UInt8) (pre : ShStr) (pid : Nat)
    (taken : ShStr → Bool) : Option ShStr :=
  let root := scratchRoot (Sh.capture printed) pre pid
  if parentIsDirectory && !Sh.caseMatches badPrefixes pre && !taken root then some root else none

/-- `${s#"$word"}` -/
def withoutWord (word s : ShStr) : ShStr := if word <+: s then s.drop word.length else s

/-- `*/*|*..*` -/
def badNames : List (List Sh.Glob) :=
  [ [.star, .word (Sh.lit "/"), .star], [.star, .word (Sh.lit ".."), .star] ]

/-- `iso_scratch_cleanup`: what it removes, or its status where it refuses. -/
def isoScratchCleanup (parent root : ShStr) (isLink : ShStr → Bool) : Except Nat (Option ShStr) :=
  if root = [] then .ok none
  else if !Sh.globMatches [.word (parent ++ [0x2f]), .star] root then .error 1
  else if Sh.caseMatches badNames (withoutWord (parent ++ [0x2f]) root) then .error 1
  else if isLink root then .error 1
  else .ok (some root)

/-! ## the directories for compared files -/

/-- `(^|/)\.\.(/|$)` is found; `free` says that `^|/` matches here. -/
def findsTraversal (free : Bool) : ShStr → Bool
  | [] => false
  | b :: s =>
      (free && (Sh.lit "..").isPrefixOf (b :: s) && ((b :: s).drop 2).head?.all (· == 0x2f)) ||
        findsTraversal (b == 0x2f) s

/-- What the schema of the contract asks of an `image_path`. -/
def imagePathOk (image : ShStr) : Bool :=
  2 ≤ image.length && image.head? == some 0x2f && !findsTraversal true image &&
    image.all fun b => b != 0x0d && b != 0x0a && b != 0x09 && b != 0x20

/-- `extracted="$VERIFY_ROOT/exact$map_image"` -/
def extractedPath (root image : ShStr) : ShStr := root ++ Sh.lit "/exact" ++ image

/-- `mkdir -p "$(dirname "$extracted")"`. -/
def createdDirectory (root image : ShStr) : ShStr :=
  Sh.capture (shPaths.dirname (extractedPath root image) ++ [0x0a])

/-! ## the guards -/

theorem dots_eq : Sh.lit ".." = shPaths.parent := by decide

/-- An accepted destination is the root, a slash and a path without `..`. -/
theorem dest_of_require {root dest : ShStr} (h : isoRequireScratchDest root dest = true) :
    ∃ rest, dest = root ++ 0x2f :: rest ∧ shPaths.parent ∉ shPaths.components rest := by
  simp only [isoRequireScratchDest, Bool.and_eq_true, Bool.not_eq_true', ← Bool.not_eq_true,
    Sh.globMatches_word_star, Sh.globMatches_star_word_star] at h
  obtain ⟨⟨-, hroot⟩, hdots⟩ := h
  obtain ⟨rest, rfl⟩ := hroot
  refine ⟨rest, by simp, ?_⟩
  intro hmem
  obtain ⟨front, back, rfl, -, -⟩ := shPaths.exists_of_mem_components hmem
  refine hdots ⟨root ++ [0x2f] ++ front, back, ?_⟩
  rw [dots_eq]
  simp only [List.append_assoc]

/-- What passes the guard of a destination is below the scratch directory. -/
theorem below_of_require {root dest : ShStr} (hroot : shPaths.Normalised root)
    (h : isoRequireScratchDest root dest = true) : shPaths.Below root dest := by
  obtain ⟨rest, rfl, hrest⟩ := dest_of_require h
  exact PathChars.below_append hroot.head? hrest

/-- What passes the guard of an inner path stays below the root of the image. -/
theorem staysInside_of_safe {inner : ShStr} (h : isoSafeInnerPath inner = true) :
    shPaths.StaysInside inner := by
  simp only [isoSafeInnerPath, Bool.and_eq_true, Bool.not_eq_true', ← Bool.not_eq_true,
    Sh.globMatches_star_word_star] at h
  refine PathChars.staysInside_of_not_mem fun hmem => h.2 ?_
  exact shPaths.infix_of_mem_components hmem

/-! ## the commands -/

/-- What `-extract` reads and writes among the commands of `xorriso`.  The other commands
have one parameter, and `-find` takes the rest. -/
def xorrisoExtracts : List ShStr → List (ShStr × ShStr)
  | command :: parameter :: rest =>
      if command = Sh.lit "-extract" then
        match rest with
        | dest :: rest => (parameter, dest) :: xorrisoExtracts rest
        | [] => []
      else if command = Sh.lit "-find" then []
      else xorrisoExtracts rest
  | _ => []

/-- What a command reads of an image and writes to a file of its own. -/
def Invocation.extracts (command : Invocation) : List (ShStr × ShStr) :=
  match command.words with
  | tool :: rest => if tool = Sh.lit "xorriso" then xorrisoExtracts rest else []
  | [] => []

/-- What a command reads of an image and prints. -/
def Invocation.cats (command : Invocation) : List ShStr :=
  match command.words with
  | tool :: option :: _ :: inner =>
      if tool = Sh.lit "unsquashfs" ∧ option = Sh.lit "-cat" then inner else []
  | _ => []

/-- The output, the log and the extracted files of the command are at or below the scratch
directory, or nowhere, and what it reads of an image never leaves the image on its way. -/
structure Invocation.Confined (root : ShStr) (command : Invocation) : Prop where
  stdout : command.stdout = Sh.lit "/dev/null" ∨ shPaths.Below root command.stdout
  log : ∀ log, command.log = some log → shPaths.Below root log
  extracts : ∀ e ∈ command.extracts, shPaths.StaysInside e.1 ∧ shPaths.Below root e.2
  cats : ∀ inner ∈ command.cats, shPaths.StaysInside inner

/-- A helper gets past its checks and runs the command. -/
inductive Runs (S : Scratch) (command : Invocation) : Prop
  | isoListFiles {iso out : ShStr} (h : isoListFiles S iso out = some command)
  | isoReportSystemArea {iso out : ShStr} (h : isoReportSystemArea S iso out = some command)
  | isoExtractFile {iso inner dest : ShStr} (h : isoExtractFile S iso inner dest = some command)
  | squashfsList {squashfs out : ShStr} (h : squashfsList S squashfs out = some command)
  | squashfsCat {squashfs inner dest : ShStr} (h : squashfsCat S squashfs inner dest = some command)

/-- A helper that writes runs its command below the root. -/
theorem of_writing {S : Scratch} (hroot : shPaths.Normalised S.root) {input dest : ShStr}
    {command run : Invocation} (h : writing S input dest command = some run) :
    run = command ∧ shPaths.Below S.root dest := by
  rw [writing, Option.ite_none_right_eq_some, Bool.and_eq_true] at h
  exact ⟨(Option.some.inj h.2).symm, below_of_require hroot h.1.2⟩

/-- So does one that extracts, and it stays inside the image. -/
theorem of_extracting {S : Scratch} (hroot : shPaths.Normalised S.root) {absolute : Bool}
    {input inner dest : ShStr} {command run : Invocation}
    (h : extracting S absolute input inner dest command = some run) :
    run = command ∧ shPaths.Below S.root dest ∧ shPaths.StaysInside inner := by
  rw [extracting, Option.ite_none_right_eq_some, Bool.and_eq_true, Bool.and_eq_true] at h
  exact ⟨(Option.some.inj h.2).symm, below_of_require hroot h.1.2, staysInside_of_safe h.1.1.2⟩

/-- The log is in the scratch directory. -/
theorem below_xorrisoLog {S : Scratch} (hroot : shPaths.Normalised S.root) :
    shPaths.Below S.root (xorrisoLog S) := by
  have hlog : xorrisoLog S = S.root ++ shPaths.slash :: Sh.lit "xorriso.log" := by
    rw [xorrisoLog, (by decide : Sh.lit "/xorriso.log" = 0x2f :: Sh.lit "xorriso.log")]
    rfl
  rw [hlog]
  exact PathChars.below_append hroot.head? (by decide)

/-- A command of a helper is confined. -/
theorem Runs.confined {S : Scratch} (hroot : shPaths.Normalised S.root) {command : Invocation}
    (h : Runs S command) : command.Confined S.root := by
  have hlog : ∀ log, some (xorrisoLog S) = some log → shPaths.Below S.root log := by
    rintro log hlog
    rw [← Option.some.inj hlog]
    exact below_xorrisoLog hroot
  cases h with
  | isoListFiles h =>
      obtain ⟨rfl, hout⟩ := of_writing hroot h
      exact ⟨.inr hout, hlog, fun e he => absurd he List.not_mem_nil,
        fun inner hinner => absurd hinner List.not_mem_nil⟩
  | isoReportSystemArea h =>
      obtain ⟨rfl, hout⟩ := of_writing hroot h
      exact ⟨.inr hout, hlog, fun e he => absurd he List.not_mem_nil,
        fun inner hinner => absurd hinner List.not_mem_nil⟩
  | isoExtractFile h =>
      obtain ⟨rfl, hdest, hinner⟩ := of_extracting hroot h
      refine ⟨.inl rfl, hlog, fun e he => ?_, fun inner hinner => absurd hinner List.not_mem_nil⟩
      rw [List.mem_singleton.mp he]
      exact ⟨hinner, hdest⟩
  | squashfsList h =>
      obtain ⟨rfl, hout⟩ := of_writing hroot h
      exact ⟨.inr hout, by intros; contradiction, fun e he => absurd he List.not_mem_nil,
        fun inner hinner => absurd hinner List.not_mem_nil⟩
  | squashfsCat h =>
      obtain ⟨rfl, hdest, hinner⟩ := of_extracting hroot h
      refine ⟨.inr hdest, by intros; contradiction, fun e he => absurd he List.not_mem_nil,
        fun inner hmem => ?_⟩
      rw [List.mem_singleton.mp hmem]
      exact hinner

/-! ## the directories -/

theorem findsTraversal_append {s : ShStr} (h : findsTraversal true s = true) (front : ShStr)
    (free : Bool) : findsTraversal free (front ++ 0x2f :: s) = true := by
  induction front generalizing free with
  | nil => rw [List.nil_append, findsTraversal, beq_self_eq_true, h, Bool.or_true]
  | cons b front ih => rw [List.cons_append, findsTraversal, ih, Bool.or_true]

/-- The pattern finds a `..` between two slashes. -/
theorem findsTraversal_of_infix {s : ShStr} (h : Sh.lit "/../" <:+: s) (free : Bool) :
    findsTraversal free s = true := by
  obtain ⟨front, back, rfl⟩ := h
  have hdots : Sh.lit "/../" = [0x2f, 0x2e, 0x2e, 0x2f] := by decide
  have hback : findsTraversal true ([0x2e, 0x2e, 0x2f] ++ back) = true := by
    simp [findsTraversal, dots_eq, PathChars.parent, shPaths]
  rw [hdots, List.append_assoc]
  exact findsTraversal_append hback front free

/-- What is read of an accepted path up to a NUL does not go up on its way. -/
theorem not_traversal_of_imagePathOk {image part : ShStr} (h : imagePathOk image = true)
    (hpart : part ∈ image.splitOn 0) : ¬ Sh.lit "/../" <:+: part := by
  intro hinside
  obtain ⟨front, back, himage, -, -⟩ := (PathChars.mk (0 : UInt8) 0).exists_of_mem_components hpart
  have hfound : findsTraversal true image = true :=
    findsTraversal_of_infix (hinside.trans ⟨front, back, himage.symm⟩) true
  simp [imagePathOk, hfound] at h

/-- A directory that has no line feed at its end is captured as it is. -/
theorem capture_append_lf {s : ShStr} (hnul : 0 ∉ s) (hlast : s.getLast? ≠ some 0x0a) :
    Sh.capture (s ++ [0x0a]) = s := by
  have hkeep : (s ++ [0x0a]).filter (fun b => b != 0) = s ++ [0x0a] := by
    rw [List.filter_eq_self]
    intro b hb
    rcases List.mem_append.mp hb with hb | hb
    · exact bne_iff_ne.mpr fun heq => hnul (heq ▸ hb)
    · rw [List.mem_singleton.mp hb]
      rfl
  have hdrop : s.reverse.dropWhile (fun b => b == 0x0a) = s.reverse := by
    rw [← List.head?_reverse] at hlast
    cases hs : s.reverse with
    | nil => rfl
    | cons b bs =>
        rw [hs, List.head?_cons] at hlast
        exact List.dropWhile_cons_of_neg (by simpa using hlast)
  rw [Sh.capture, hkeep, List.reverse_append, List.reverse_singleton, List.singleton_append,
    List.dropWhile_cons_of_pos (by rfl), hdrop, List.reverse_reverse]

/-- The name of a scratch directory ends in a digit. -/
theorem getLast?_scratchRoot (parent pre : ShStr) (pid : Nat) :
    ∃ b, (scratchRoot parent pre pid).getLast? = some b ∧ 0x30 ≤ b.toNat := by
  have hne := PyStr.decimalDigits_ne_nil pid
  have hdigit := PyStr.lt_of_mem_decimalDigits (List.getLast_mem hne)
  have hdigits := (List.dropLast_append_getLast hne).symm
  generalize (PyStr.decimalDigits pid).getLast hne = d at hdigit hdigits
  generalize (PyStr.decimalDigits pid).dropLast = ds at hdigits
  refine ⟨UInt8.ofNat (PyStr.digitChar d).val, ?_, ?_⟩
  · have hroot : scratchRoot parent pre pid = (parent ++ 0x2f :: pre ++
        0x2e :: Utf8.asciiBytes (ds.map PyStr.digitChar)) ++
          [UInt8.ofNat (PyStr.digitChar d).val] := by
      simp [scratchRoot, Utf8.asciiBytes, PyStr.ofNat, hdigits]
    rw [hroot, List.getLast?_concat]
  · rw [PyStr.digitChar_val hdigit, Utf8.toNat_ofNat_of_lt (by omega)]
    omega

theorem getLast?_of_isoScratchInit {parentIsDirectory : Bool} {printed : List UInt8} {pre : ShStr}
    {pid : Nat} {taken : ShStr → Bool} {root : ShStr}
    (h : isoScratchInit parentIsDirectory printed pre pid taken = some root) :
    ∃ b, root.getLast? = some b ∧ 0x30 ≤ b.toNat := by
  simp only [isoScratchInit] at h
  split at h
  · rw [← Option.some.inj h]
    exact getLast?_scratchRoot _ pre pid
  · contradiction

/-- The characters of the directory of an extracted file, and its last one. -/
theorem createdDirectory_eq {root image part : ShStr} (hroot : root.head? = some 0x2f)
    (hnul : 0 ∉ root) (hlast : ∃ b, root.getLast? = some b ∧ 0x30 ≤ b.toNat)
    (himage : imagePathOk image = true) (hpart : part ∈ image.splitOn 0) :
    createdDirectory root part = shPaths.dirname (extractedPath root part) := by
  have hpath : extractedPath root part = root ++ shPaths.slash :: (Sh.lit "exact" ++ part) := by
    have hexact : Sh.lit "/exact" = 0x2f :: Sh.lit "exact" := by decide
    rw [extractedPath, hexact, List.append_assoc]
    rfl
  have htail : ∀ b ∈ Sh.lit "exact" ++ part, b ≠ 0 ∧ b ≠ 0x0a := by
    have hexact : (Sh.lit "exact").all (fun b => b != 0 && b != 0x0a) = true := by decide
    simp only [imagePathOk, Bool.and_eq_true, List.all_eq_true] at himage
    obtain ⟨front, back, hsplit, -, -⟩ :=
      (PathChars.mk (0 : UInt8) 0).exists_of_mem_components hpart
    intro b hb
    rcases List.mem_append.mp hb with hb | hb
    · simpa using List.all_eq_true.mp hexact b hb
    · have hzero := (PathChars.mk (0 : UInt8) 0).slash_not_mem hpart
      have hline := himage.2 b (by rw [hsplit]; simp [hb])
      simp only [bne_iff_ne, ne_eq] at hline
      exact ⟨fun heq => hzero (heq ▸ hb), hline.1.1.2⟩
  obtain ⟨b, hb, hdigit⟩ := hlast
  have hslash : b ≠ 0x2f := by
    rintro rfl
    exact absurd hdigit (by decide)
  have hlf : b ≠ 0x0a := by
    rintro rfl
    exact absurd hdigit (by decide)
  rw [createdDirectory, hpath]
  have hcases := shPaths.dirname_append hroot
    ⟨0x65, List.mem_append_left part (by decide : (0x65 : UInt8) ∈ Sh.lit "exact"), by decide⟩
  rcases hcases with ⟨-, n, hn⟩ | ⟨c, x, hne, hc, hdir⟩
  · -- The directory is the root: nothing follows it, as the root ends in a digit.
    have hzero : n = 0 := by
      by_contra hpos
      obtain ⟨m, rfl⟩ := Nat.exists_eq_succ_of_ne_zero hpos
      rw [hn, List.replicate_succ', ← List.append_assoc, List.getLast?_concat] at hb
      exact hslash (Option.some.inj hb).symm
    rw [hzero, List.replicate_zero, List.append_nil] at hn
    rw [← hn]
    exact capture_append_lf hnul (by rw [hb]; simpa using hlf)
  · rw [hdir]
    have hmem : ∀ y ∈ c, y ≠ 0 ∧ y ≠ 0x0a := fun y hy => htail y (by rw [hc]; simp [hy])
    refine capture_append_lf ?_ ?_
    · simp only [List.mem_append, List.mem_cons, not_or]
      exact ⟨hnul, by decide, fun hy => (hmem 0 hy).1 rfl⟩
    · rw [List.getLast?_append_of_ne_nil _ (List.cons_ne_nil _ _), List.getLast?_cons_of_ne_nil hne]
      intro hy
      exact (hmem 0x0a (List.mem_of_getLast? hy)).2 rfl

/-- The directory made for an accepted path is not above the scratch directory. -/
theorem below_createdDirectory {root image part : ShStr} (hroot : root.head? = some 0x2f)
    (hnul : 0 ∉ root) (hlast : ∃ b, root.getLast? = some b ∧ 0x30 ≤ b.toNat)
    (himage : imagePathOk image = true) (hpart : part ∈ image.splitOn 0) :
    shPaths.Below root (createdDirectory root part) := by
  rw [createdDirectory_eq hroot hnul hlast himage hpart, extractedPath,
    (by decide : Sh.lit "/exact" = 0x2f :: Sh.lit "exact"), List.append_assoc, List.cons_append]
  refine shPaths.below_dirname hroot
    ⟨0x65, List.mem_append_left part (by decide : (0x65 : UInt8) ∈ Sh.lit "exact"), by decide⟩ ?_
  intro hup
  refine not_traversal_of_imagePathOk himage hpart ?_
  have hexact : Sh.lit "exact" = [0x65, 0x78, 0x61, 0x63, 0x74] := by decide
  have hdots : Sh.lit "/../" = [0x2f, 0x2e, 0x2e, 0x2f] := by decide
  rw [hdots]
  simpa [shPaths, PathChars.parent, hexact, List.infix_cons_iff, List.cons_prefix_cons] using hup

/-! ## extraction stays in the scratch directory -/

/-- **Extraction**: the command of a helper that gets past its checks writes its output, its
log and the extracted file at or below the scratch directory, and what it reads never leaves
the image on its way; so do the directories that are made for accepted paths. -/
theorem extraction_confined (S : Scratch) (hroot : shPaths.Normalised S.root) :
    (∀ command, Runs S command → command.Confined S.root) ∧
    (∀ parentIsDirectory printed pre pid taken,
      isoScratchInit parentIsDirectory printed pre pid taken = some S.root →
        ∀ image, imagePathOk image = true → ∀ part ∈ image.splitOn 0,
          shPaths.Below S.root (createdDirectory S.root part)) := by
  refine ⟨fun command h => h.confined hroot, ?_⟩
  intro parentIsDirectory printed pre pid taken hinit image himage part hpart
  exact below_createdDirectory hroot.head? S.root_string (getLast?_of_isoScratchInit hinit)
    himage hpart

/-- The scratch directory of a verification. -/
def verifyScratch : Scratch where
  root := Sh.lit "/srv/build/verify-artifacts.42"
  root_string := by decide
  isRegularInput _ := true

/-- The kernel of an image is extracted to the scratch directory. -/
theorem verifyScratch_confined :
    ∃ command, isoExtractFile verifyScratch (Sh.lit "/srv/a.iso") (Sh.lit "/live/vmlinuz")
        (Sh.lit "/srv/build/verify-artifacts.42/vmlinuz") = some command ∧
      command.Confined verifyScratch.root := by
  have hruns : (isoExtractFile verifyScratch (Sh.lit "/srv/a.iso") (Sh.lit "/live/vmlinuz")
      (Sh.lit "/srv/build/verify-artifacts.42/vmlinuz")).isSome = true := by decide
  obtain ⟨command, hrun⟩ := Option.isSome_iff_exists.mp hruns
  exact ⟨command, hrun,
    (extraction_confined verifyScratch (by decide)).1 command (.isoExtractFile hrun)⟩

/-! ## the scratch directory is removed again -/

theorem withoutWord_append (word s : ShStr) : withoutWord word (word ++ s) = s := by
  rw [withoutWord, if_pos (List.prefix_append word s), List.drop_left]

/-- A bad name holds a slash or two dots. -/
theorem caseMatches_badNames (s : ShStr) :
    Sh.caseMatches badNames s = true ↔ Sh.lit "/" <:+: s ∨ Sh.lit ".." <:+: s := by
  simp [Sh.caseMatches, badNames]

/-- Two stops in a row in `pre.n` are in `pre`, or the stop is the second one. -/
theorem twice_infix_append_iff {a : UInt8} {ds : ShStr} (hds : a ∉ ds) (pre : ShStr) :
    [a, a] <:+: pre ++ a :: ds ↔ [a, a] <:+: pre ∨ pre.getLast? = some a := by
  have hnone : ¬ [a, a] <:+: ds := fun h => hds (h.subset List.mem_cons_self)
  induction pre with
  | nil =>
      rw [List.nil_append, List.infix_cons_iff, List.cons_prefix_cons]
      simp only [hnone, or_false, List.infix_nil, List.getLast?_nil, reduceCtorEq, iff_false]
      rintro ⟨-, h⟩
      exact hds (h.subset List.mem_cons_self)
  | cons b pre ih =>
      have hstep : [a, a] <:+: b :: pre ++ a :: ds ↔
          [a, a] <+: b :: pre ++ a :: ds ∨ [a, a] <:+: pre ∨ pre.getLast? = some a := by
        rw [List.cons_append, List.infix_cons_iff]
        exact or_congr Iff.rfl ih
      rw [hstep]
      cases pre with
      | nil =>
          have hlast : [b].getLast? = some a ↔ a = b := by
            rw [List.getLast?_singleton, Option.some.injEq, eq_comm]
          rw [hlast]
          simp [List.cons_prefix_cons, List.infix_cons_iff]
      | cons c pre =>
          rw [List.getLast?_cons_cons, @List.infix_cons_iff _ _ b (c :: pre)]
          simp only [List.cons_append, List.cons_prefix_cons, List.nil_prefix, and_true, or_assoc]

/-- The name that `iso_scratch_init` gives to the directory. -/
def scratchName (pre : ShStr) (pid : Nat) : ShStr :=
  pre ++ 0x2e :: Utf8.asciiBytes (PyStr.ofNat pid)

theorem mem_digits {pid : Nat} {b : UInt8} (h : b ∈ Utf8.asciiBytes (PyStr.ofNat pid)) :
    0x30 ≤ b.toNat := by
  simp only [Utf8.asciiBytes, PyStr.ofNat, List.map_map, List.mem_map, Function.comp] at h
  obtain ⟨d, hd, rfl⟩ := h
  have hlt := PyStr.lt_of_mem_decimalDigits hd
  rw [PyStr.digitChar_val hlt, Utf8.toNat_ofNat_of_lt (by omega)]
  omega

/-- What the guard of `iso_scratch_init` refuses in a prefix. -/
theorem of_badPrefixes {pre : ShStr} (hpre : Sh.caseMatches badPrefixes pre = false) :
    pre ≠ [] ∧ 0x2f ∉ pre ∧ ¬ [0x2e, 0x2e] <:+: pre := by
  have hslash : Sh.lit "/" = [0x2f] := by decide
  have hdots : Sh.lit ".." = [0x2e, 0x2e] := by decide
  refine ⟨?_, ?_⟩
  · rintro rfl
    exact absurd hpre (by decide)
  · simp only [Sh.caseMatches, badPrefixes, List.any_cons, List.any_nil, Bool.or_false,
      Bool.or_eq_false_iff, hslash, hdots] at hpre
    rw [← List.singleton_infix_iff, ← Sh.globMatches_star_word_star,
      ← Sh.globMatches_star_word_star, hpre.2.1, hpre.2.2.1]
    exact ⟨Bool.false_ne_true, Bool.false_ne_true⟩

/-- The name of a scratch directory is a single component. -/
theorem slash_not_mem_scratchName {pre : ShStr} (hpre : Sh.caseMatches badPrefixes pre = false)
    (pid : Nat) : 0x2f ∉ scratchName pre pid := by
  rw [scratchName, List.mem_append, List.mem_cons, not_or, not_or]
  exact ⟨(of_badPrefixes hpre).2.1, by decide, fun hmem => absurd (mem_digits hmem) (by decide)⟩

/-- So it is neither `.` nor `..`. -/
theorem three_le_length_scratchName {pre : ShStr} (hpre : Sh.caseMatches badPrefixes pre = false)
    (pid : Nat) : 3 ≤ (scratchName pre pid).length := by
  have hpos := List.length_pos_of_ne_nil (of_badPrefixes hpre).1
  have hdigits := List.length_pos_of_ne_nil (PyStr.decimalDigits_ne_nil pid)
  simp only [scratchName, Utf8.asciiBytes, PyStr.ofNat, List.length_append, List.length_cons,
    List.length_map]
  omega

/-- The name is neither empty nor `.`. -/
theorem isHere_scratchName {pre : ShStr} (hpre : Sh.caseMatches badPrefixes pre = false)
    (pid : Nat) : shPaths.isHere (scratchName pre pid) = false := by
  have hlength := three_le_length_scratchName hpre pid
  rw [PathChars.isHere, Bool.or_eq_false_iff, beq_eq_false_iff_ne, beq_eq_false_iff_ne]
  constructor
  · intro heq
    rw [heq] at hlength
    exact absurd hlength (by decide)
  · intro heq
    rw [heq] at hlength
    exact absurd hlength (by decide : ¬ 3 ≤ [shPaths.dot].length)

/-- A name that `iso_scratch_init` gives is refused at the end when its prefix ends in
a full stop. -/
theorem caseMatches_scratchName {pre : ShStr} (hpre : Sh.caseMatches badPrefixes pre = false)
    (pid : Nat) :
    Sh.caseMatches badNames (scratchName pre pid) = true ↔ pre.getLast? = some 0x2e := by
  have hslash : Sh.lit "/" = [0x2f] := by decide
  have hdots : Sh.lit ".." = [0x2e, 0x2e] := by decide
  have hdigits : 0x2e ∉ Utf8.asciiBytes (PyStr.ofNat pid) := fun hmem =>
    absurd (mem_digits hmem) (by decide)
  have hname : (0x2f : UInt8) ∉ pre ++ 0x2e :: Utf8.asciiBytes (PyStr.ofNat pid) :=
    slash_not_mem_scratchName hpre pid
  rw [caseMatches_badNames, hslash, hdots, scratchName, List.singleton_infix_iff,
    or_iff_right hname, twice_infix_append_iff hdigits, or_iff_right (of_badPrefixes hpre).2.2]

/-- What the cleanup removes is a file of that name in the parent, or the parent itself. -/
theorem name_of_isoScratchCleanup {parent root removed : ShStr} {isLink : ShStr → Bool}
    (h : isoScratchCleanup parent root isLink = .ok (some removed)) :
    removed = root ∧ isLink root = false ∧ ∃ name, root = parent ++ 0x2f :: name ∧ 0x2f ∉ name ∧
      name ≠ shPaths.parent := by
  simp only [isoScratchCleanup] at h
  split at h
  · cases h
  split at h
  · contradiction
  next hprefix =>
    split at h
    · contradiction
    next hname =>
      split at h
      · contradiction
      next hlink =>
        simp only [Bool.not_eq_true, Bool.not_eq_false', Sh.globMatches_word_star] at hprefix
        obtain ⟨name, rfl⟩ := hprefix
        rw [withoutWord_append, caseMatches_badNames, not_or] at hname
        refine ⟨(Option.some.inj (Except.ok.inj h)).symm, Bool.not_eq_true _ ▸ hlink, name,
          by simp, ?_, ?_⟩
        · intro hmem
          obtain ⟨x, y, rfl⟩ := List.append_of_mem hmem
          exact hname.1 ⟨x, y, by simp [(by decide : Sh.lit "/" = [0x2f])]⟩
        · rintro rfl
          exact hname.2 (by rw [dots_eq])

/-- The root that the initialisation chooses has a name in its parent. -/
theorem root_of_isoScratchInit {parentIsDirectory : Bool} {printed : List UInt8} {pre : ShStr}
    {pid : Nat} {taken : ShStr → Bool} {root : ShStr}
    (h : isoScratchInit parentIsDirectory printed pre pid taken = some root) :
    Sh.caseMatches badPrefixes pre = false ∧
      root = Sh.capture printed ++ 0x2f :: scratchName pre pid := by
  simp only [isoScratchInit] at h
  split at h
  · next hchecks =>
      simp only [Bool.and_eq_true, Bool.not_eq_true'] at hchecks
      refine ⟨hchecks.1.2, ?_⟩
      rw [← Option.some.inj h]
      simp [scratchRoot, scratchName]
  · contradiction

/-- **The scratch directory is removed again**: what the cleanup removes is the root, no link,
and named by one component behind its parent; it lies directly in the parent unless this
component is empty or a full stop, and then it is the parent.  The initialisation chooses no such
name, and what it has made is removed unless it is a link by then or the prefix ends in a full
stop. -/
theorem scratch_cleanup_exact :
    (∀ parent root isLink removed, isoScratchCleanup parent root isLink = .ok (some removed) →
      removed = root ∧ isLink removed = false ∧
        ∃ name, removed = parent ++ 0x2f :: name ∧ 0x2f ∉ name ∧
        shPaths.normalise removed = if shPaths.isHere name then shPaths.normalise parent
          else shPaths.normalise parent ++ [name]) ∧
    ∀ parentIsDirectory printed pre pid taken root isLink,
      isoScratchInit parentIsDirectory printed pre pid taken = some root →
        (isoScratchCleanup (Sh.capture printed) root isLink = .ok (some root) ↔
          isLink root = false ∧ pre.getLast? ≠ some 0x2e) ∧
        shPaths.normalise root =
          shPaths.normalise (Sh.capture printed) ++ [scratchName pre pid] := by
  constructor
  · intro parent root isLink removed h
    obtain ⟨rfl, hlink, name, rfl, hslash, hup⟩ := name_of_isoScratchCleanup h
    refine ⟨rfl, hlink, name, rfl, hslash, ?_⟩
    exact (shPaths.normalise_append_name parent hslash).trans (by rw [PathChars.step, if_neg hup])
  · intro parentIsDirectory printed pre pid taken root isLink h
    obtain ⟨hpre, hroot⟩ := root_of_isoScratchInit h
    have hname := caseMatches_scratchName hpre pid
    constructor
    · have hne : root ≠ [] := by simp [hroot]
      have hprefix : Sh.globMatches [.word (Sh.capture printed ++ [0x2f]), .star] root = true := by
        rw [Sh.globMatches_word_star, hroot]
        exact ⟨scratchName pre pid, by simp⟩
      have hcut : withoutWord (Sh.capture printed ++ [0x2f]) root = scratchName pre pid := by
        have hsplit : root = Sh.capture printed ++ [0x2f] ++ scratchName pre pid := by simp [hroot]
        rw [hsplit, withoutWord_append]
      rw [isoScratchCleanup, if_neg hne, hprefix, hcut]
      by_cases hstop : pre.getLast? = some 0x2e
      · simp [hname.mpr hstop, hstop]
      · have hpass := Bool.not_eq_true _ ▸ mt hname.mp hstop
        cases hlink : isLink root <;> simp [hpass, hstop]
    · rw [hroot]
      refine (shPaths.normalise_append_name _ (slash_not_mem_scratchName hpre pid)).trans ?_
      have hup : scratchName pre pid ≠ shPaths.parent := fun heq => by
        have hlength := three_le_length_scratchName hpre pid
        rw [heq] at hlength
        exact absurd hlength (by decide)
      rw [PathChars.step, isHere_scratchName hpre pid, if_neg Bool.false_ne_true, if_neg hup]

theorem scratch_cleanup_verify :
    isoScratchCleanup (Sh.capture (Sh.lit "/srv/build\n"))
        (Sh.lit "/srv/build/verify-artifacts.42") (fun _ => false) =
      .ok (some (Sh.lit "/srv/build/verify-artifacts.42")) := by
  have hinit : isoScratchInit true (Sh.lit "/srv/build\n") (Sh.lit "verify-artifacts") 42
      (fun _ => false) = some (Sh.lit "/srv/build/verify-artifacts.42") := by decide
  exact (scratch_cleanup_exact.2 _ _ _ _ _ _ _ hinit).1.mpr ⟨rfl, by decide⟩

end Release

end SushidaOs
