import Mathlib.Data.List.Dedup
import Mathlib.Data.List.Sort
import SushidaOs.Decimal
import SushidaOs.Lines
import SushidaOs.PathTree
import SushidaOs.Paths
import SushidaOs.StrOrder
import SushidaOs.Utf8

/-!
# SushidaOs.Structure

`tools/gen-structure.py`: the listing of the worktree in `STRUCTURE.txt`, and the
check that it is not stale.

The listing is a tree of paths (`SushidaOs.PathTree`).  The paths are sorted as
strings and not component by component, which still keeps the paths below a
directory together (`grouped_sorted`).  So the lines say which paths are listed as
long as indentation and names can be told apart (`PlainName`), and `--check` passes
only where the worktree lists what it listed when the file was written.
-/

namespace SushidaOs

namespace Structure

open PyStr PathTree

/-- `OUTPUT.name` -/
def output : PyStr := lit "STRUCTURE.txt"

/-- `HEADER` -/
def header : PyStr :=
  lit "# Generated by tools/gen-structure.py from `git ls-files`.\n" ++
    lit "# Do not edit by hand; run `make check-structure` to validate,\n" ++
    lit "# and regenerate with `python3 tools/gen-structure.py`.\n"

/-- `EXCLUDED_BASENAMES` -/
def excludedBasenames : List PyStr := [lit ".gitkeep"]

def slash : CodePoint := 0x2f

def sep : PathChars CodePoint where
  slash := slash
  dot := 0x2e

/-- What the two runs of `git ls-files -z` print; `none` where git fails. -/
structure Git where
  listed : Option (List UInt8)
  deleted : Option (List UInt8)

/-- The names in the output of a run. -/
def names (stdout : Option (List UInt8)) : Option (List PyStr) :=
  match stdout with
  | none => none
  | some bytes => ((bytes.splitOn 0).filter fun name => !name.isEmpty).mapM Utf8.decodeStrict

/-- `Path(name).name` -/
def pathName (name : PyStr) : PyStr :=
  ((sep.components name).filter fun part => !sep.isHere part).getLastD []

/-- The set `names` in `tracked_files`, without the excluded ones. -/
def kept (listed deleted : List PyStr) : List PyStr :=
  let names := listed.dedup.filter fun name => name ∉ deleted
  let names := if output ∈ names then names else names ++ [output]
  names.filter fun name => pathName name ∉ excludedBasenames

/-- `tracked_files`, `none` where it raises. -/
def trackedFiles (git : Git) : Option (List PyStr) :=
  match names git.listed, names git.deleted with
  | some listed, some deleted => some (sort (kept listed deleted))
  | _, _ => none

/-- The state of the loops of `render`. -/
structure Listing where
  lines : List PyStr
  emittedDirs : List PyStr

/-- `"  " * depth` -/
def indent (depth : Nat) : PyStr := List.replicate (2 * depth) 0x20

/-- The inner loop of `render` at one depth. -/
def addDirectory (parts : List PyStr) (state : Listing) (depth : Nat) : Listing :=
  let directory := join [slash] (parts.take (depth + 1))
  if directory ∈ state.emittedDirs then state
  else
    { lines := state.lines ++ [indent depth ++ parts.getD depth [] ++ [slash]]
      emittedDirs := state.emittedDirs ++ [directory] }

/-- The outer loop of `render` at one path. -/
def addPath (state : Listing) (path : PyStr) : Listing :=
  let parts := sep.components path
  let state := (List.range (parts.length - 1)).foldl (addDirectory parts) state
  { state with lines := state.lines ++ [indent (parts.length - 1) ++ parts.getLastD []] }

/-- `render` -/
def render (paths : List PyStr) : PyStr :=
  let state := paths.foldl addPath { lines := [header], emittedDirs := [] }
  join (lit "\n") state.lines ++ lit "\n"

/-- How a run ends.  An exception that nothing catches is status 1, its traceback is
not modelled. -/
structure Ended where
  status : Nat
  stdout : PyStr
  stderr : PyStr
  /-- The bytes of `STRUCTURE.txt`, if it is a file. -/
  file : Option (List UInt8)
  deriving DecidableEq

/-- `OUTPUT.read_text() if OUTPUT.is_file() else ""`, `none` where it raises. -/
def current (file : Option (List UInt8)) : Option PyStr :=
  match file with
  | none => some []
  | some bytes => (Utf8.decodeStrict bytes).map universalNewlines

/-- `main` -/
def main (argv : List PyStr) (git : Git) (file : Option (List UInt8)) : Ended :=
  let checkOnly := argv == [lit "--check"]
  if !argv.isEmpty && !checkOnly then
    ⟨2, [], lit "usage: gen-structure.py [--check]\n", file⟩
  else match trackedFiles git with
    | none => ⟨1, [], [], file⟩
    | some paths =>
        let rendered := render paths
        if checkOnly then
          match current file with
          | none => ⟨1, [], [], file⟩
          | some text =>
              if text ≠ rendered then
                ⟨1, [], lit ("STRUCTURE.txt is stale; regenerate with " ++
                  "`python3 tools/gen-structure.py`\n"), file⟩
              else ⟨0, lit "structure_index=PASS\n", [], file⟩
        else match encodeUtf8 rendered with
          | .error _ => ⟨1, [], [], some []⟩
          | .ok bytes =>
              ⟨0, lit "wrote STRUCTURE.txt (" ++ ofNat rendered.splitlines.length ++
                lit " lines)\n", [], some bytes⟩

/-- The worktree has a path to list. -/
def Lists (git : Git) (name : PyStr) : Prop :=
  (name = output ∨ name ∈ (names git.listed).getD [] ∧ name ∉ (names git.deleted).getD []) ∧
    pathName name ∉ excludedBasenames

/-- A name without line breaks, no part of it with two spaces in front. -/
def PlainName (name : PyStr) : Prop :=
  (∀ c ∈ name, c ≠ 0x0a ∧ c ≠ 0x0d) ∧ ∀ part ∈ sep.components name, ¬ [0x20, 0x20] <+: part

/-- The line of an entry. -/
def line (e : Entry PyStr) : PyStr :=
  indent (e.path.length - 1) ++ e.path.getLastD [] ++ if e.isDir then [slash] else []

/-! ## the names -/

theorem exists_of_mem_mapM {α β : Type} {f : α → Option β} {xs : List α} {ys : List β}
    (h : xs.mapM f = some ys) {y : β} (hy : y ∈ ys) : ∃ x ∈ xs, f x = some y := by
  induction xs generalizing ys with
  | nil =>
      rw [List.mapM_nil] at h
      obtain rfl : [] = ys := by simpa using h
      contradiction
  | cons x xs ih =>
      rw [List.mapM_cons] at h
      obtain ⟨z, hz, h⟩ := Option.bind_eq_some_iff.mp h
      obtain ⟨zs, hzs, h⟩ := Option.bind_eq_some_iff.mp h
      obtain rfl : z :: zs = ys := by simpa using h
      rcases List.mem_cons.mp hy with rfl | hy
      · exact ⟨x, List.mem_cons_self, hz⟩
      · obtain ⟨x', hx', hf⟩ := ih hzs hy
        exact ⟨x', List.mem_cons_of_mem x hx', hf⟩

/-- What git prints is decoded strictly. -/
theorem encodable_of_mem_names {stdout : Option (List UInt8)} {listed : List PyStr}
    (h : names stdout = some listed) {name : PyStr} (hname : name ∈ listed) : name.Encodable := by
  cases stdout with
  | none => contradiction
  | some bytes =>
      obtain ⟨piece, -, hpiece⟩ := exists_of_mem_mapM h hname
      exact (Utf8.decodeStrict_sound hpiece).1

/-- The file itself is always kept, a deleted name and an excluded one never. -/
theorem mem_kept {listed deleted : List PyStr} {name : PyStr} :
    name ∈ kept listed deleted ↔
      (name = output ∨ name ∈ listed ∧ name ∉ deleted) ∧ pathName name ∉ excludedBasenames := by
  simp only [kept, List.mem_filter, decide_eq_true_eq]
  refine and_congr_left' ?_
  split
  · rename_i hmem
    simp only [List.mem_dedup, List.mem_filter, decide_eq_true_eq] at hmem ⊢
    exact ⟨.inr, fun h => h.elim (fun heq => heq ▸ hmem) id⟩
  · rw [List.mem_append, List.mem_filter, List.mem_dedup, List.mem_singleton, decide_eq_true_eq,
      or_comm]

/-- A name that is listed twice is kept once. -/
theorem nodup_kept (listed deleted : List PyStr) : (kept listed deleted).Nodup := by
  refine List.Nodup.filter _ ?_
  have hnodup := (List.nodup_dedup listed).filter fun name => decide (name ∉ deleted)
  split
  · exact hnodup
  · rename_i hmem
    exact hnodup.append (List.nodup_singleton output) (List.disjoint_singleton.mpr hmem)

/-- The tracked files are the names that `Lists` says, once each and in order. -/
theorem trackedFiles_spec {git : Git} {paths : List PyStr} (h : trackedFiles git = some paths) :
    (∀ name, name ∈ paths ↔ Lists git name) ∧ paths.Nodup ∧
      paths.Pairwise (fun a b => PyStr.lt b a = false) ∧ ∀ name ∈ paths, name.Encodable := by
  rw [trackedFiles] at h
  cases hlisted : names git.listed with
  | none => rw [hlisted] at h; contradiction
  | some listed =>
      cases hdeleted : names git.deleted with
      | none => rw [hlisted, hdeleted] at h; contradiction
      | some deleted =>
          rw [hlisted, hdeleted] at h
          obtain rfl := Option.some.inj h
          have hmem : ∀ name, name ∈ sort (kept listed deleted) ↔ Lists git name := by
            intro name
            rw [(perm_sort _).mem_iff, mem_kept, Lists, hlisted, hdeleted, Option.getD_some,
              Option.getD_some]
          refine ⟨hmem, (perm_sort _).nodup_iff.mpr (nodup_kept listed deleted),
            pairwise_sort _, ?_⟩
          intro name hname
          rw [(perm_sort _).mem_iff, mem_kept] at hname
          rcases hname.1 with rfl | hname
          · exact encodable_lit _
          · exact encodable_of_mem_names hlisted hname.1

/-! ## the loops -/

/-- `directory`, for the parts of a directory. -/
theorem join_inj {d e : List PyStr} (hd : d ≠ []) (hdfree : ∀ c ∈ d, slash ∉ c) (he : e ≠ [])
    (hefree : ∀ c ∈ e, slash ∉ c) (h : join [slash] d = join [slash] e) : d = e := by
  rw [← List.splitOn_intercalate slash hdfree hd, ← List.splitOn_intercalate slash hefree he]
  exact congrArg (List.splitOn slash) h

/-- `emitted_dirs` holds the directories `seen`. -/
def Emitted (emitted : List PyStr) (seen : List (List PyStr)) : Prop :=
  ∀ d, d ≠ [] → (∀ c ∈ d, slash ∉ c) → (join [slash] d ∈ emitted ↔ d ∈ seen)

/-- The line of a directory: its depth, its last component and a slash. -/
theorem line_dir {parts : List PyStr} {depth : Nat} (h : depth < parts.length) :
    line (.dir (parts.take (depth + 1))) = indent depth ++ parts.getD depth [] ++ [slash] := by
  have hlen : (parts.take (depth + 1)).length - 1 = depth := by
    rw [List.length_take_of_le h]
    exact Nat.add_sub_cancel depth 1
  have hlast : (parts.take (depth + 1)).getLastD [] = parts.getD depth [] := by
    rw [List.take_add_one, List.getD_eq_getElem?_getD, List.getElem?_eq_getElem h,
      List.getLastD_eq_getLast?, Option.toList_some, List.getLast?_concat]
  simp only [line, Entry.path, Entry.isDir, hlen, hlast, if_true]

/-- The front parts of a path, down to `n` components. -/
def fronts (parts : List PyStr) (n : Nat) : List (List PyStr) :=
  (List.range' 1 n).map fun k => parts.take k

/-- Of the directories above a file those are printed that were not printed before. -/
theorem foldl_addDirectory {parts : List PyStr} (hfree : ∀ c ∈ parts, slash ∉ c)
    {state : Listing} {seen : List (List PyStr)} (hseen : Emitted state.emittedDirs seen) (n : Nat)
    (hn : n ≤ parts.length) :
    ((List.range n).foldl (addDirectory parts) state).lines =
        state.lines ++ (((fronts parts n).filter fun d => d ∉ seen).map .dir).map line ∧
      Emitted ((List.range n).foldl (addDirectory parts) state).emittedDirs
        (seen ++ fronts parts n) := by
  induction n with
  | zero => simpa [fronts] using hseen
  | succ n ih =>
      obtain ⟨hlines, hemitted⟩ := ih (by omega)
      have hlen : (parts.take (n + 1)).length = n + 1 := List.length_take_of_le hn
      have hne : parts.take (n + 1) ≠ [] := by
        rw [← List.length_pos_iff, hlen]
        exact Nat.succ_pos n
      have hfree' : ∀ c ∈ parts.take (n + 1), slash ∉ c :=
        fun c hc => hfree c (List.mem_of_mem_take hc)
      -- The directory is longer than those before it.
      have hfresh : parts.take (n + 1) ∉ fronts parts n := by
        intro hmem
        obtain ⟨k, hk, heq⟩ := List.mem_map.mp hmem
        rw [List.mem_range'_1] at hk
        have hlens := congrArg List.length heq
        rw [hlen, List.length_take_of_le (by omega)] at hlens
        omega
      have hin := hemitted _ hne hfree'
      rw [List.mem_append, or_iff_left hfresh] at hin
      have hfronts : fronts parts (n + 1) = fronts parts n ++ [parts.take (n + 1)] := by
        rw [fronts, List.range'_1_concat, List.map_append, Nat.add_comm 1 n]
        rfl
      rw [List.range_succ, List.foldl_append, List.foldl_cons, List.foldl_nil, hfronts]
      generalize (List.range n).foldl (addDirectory parts) state = before at hlines hemitted hin
      generalize fronts parts n = above at hlines hemitted
      rw [addDirectory]
      split
      · rename_i hmem
        have hold := hin.mp hmem
        rw [List.filter_append, List.filter_cons_of_neg (by simpa using hold), List.filter_nil,
          List.append_nil]
        refine ⟨hlines, fun d hd hdfree => ?_⟩
        rw [hemitted d hd hdfree, ← List.append_assoc]
        refine ⟨List.mem_append_left _, fun h => (List.mem_append.mp h).elim id fun h => ?_⟩
        obtain rfl := List.mem_singleton.mp h
        exact List.mem_append_left above hold
      · rename_i hmem
        have hnew : parts.take (n + 1) ∉ seen := fun h => hmem (hin.mpr h)
        rw [List.filter_append, List.filter_cons_of_pos (by simpa using hnew), List.filter_nil]
        refine ⟨?_, fun d hd hdfree => ?_⟩
        · rw [hlines, ← line_dir hn, List.map_append, List.map_append, List.append_assoc]
          rfl
        · simp only [List.mem_append, hemitted d hd hdfree, List.mem_singleton, ← or_assoc]
          exact or_congr_right ⟨join_inj hd hdfree hne hfree', congrArg _⟩

/-- The lines of the listing are those of the tree. -/
theorem foldl_addPath (paths : List PyStr) {state : Listing} {seen : List (List PyStr)}
    (hseen : Emitted state.emittedDirs seen) :
    (paths.foldl addPath state).lines =
      state.lines ++ (entries seen (paths.map sep.components)).map line := by
  induction paths generalizing state seen with
  | nil => simp [entries]
  | cons path paths ih =>
      have hfree : ∀ c ∈ sep.components path, slash ∉ c := fun c hc => sep.slash_not_mem hc
      obtain ⟨hlines, hemitted⟩ := foldl_addDirectory hfree hseen
        ((sep.components path).length - 1) (Nat.sub_le _ _)
      rw [List.foldl_cons, @ih (addPath state path) _ hemitted, addPath, hlines, List.map_cons,
        entries, List.map_append, List.map_cons]
      simp only [dirs, fronts, line, Entry.path, Entry.isDir, List.append_assoc,
        List.singleton_append, Bool.false_eq_true, if_false, List.append_nil]
      congr!

/-- Joined lines with one more line feed are lines that each end in one. -/
theorem join_append_sep (c : CodePoint) {strings : List PyStr} (h : strings ≠ []) :
    join [c] strings ++ [c] = strings.flatMap fun s => s ++ [c] := by
  induction strings with
  | nil => contradiction
  | cons s strings ih =>
      cases strings with
      | nil => simp [join]
      | cons t strings =>
          rw [List.flatMap_cons, ← ih (List.cons_ne_nil t strings)]
          simp [join]

/-- The listing as text. -/
theorem render_eq (paths : List PyStr) :
    render paths = header ++ [0x0a] ++
      (entries [] (paths.map sep.components)).flatMap fun e => line e ++ [0x0a] := by
  have hlines := @foldl_addPath paths ⟨[header], []⟩ []
    (fun d _ _ => by simp)
  have hlf : lit "\n" = [0x0a] := by decide
  rw [render, hlf, hlines, join_append_sep _ (List.append_ne_nil_of_left_ne_nil
    (List.cons_ne_nil header []) _), List.flatMap_append, List.flatMap_map]
  simp

/-! ## blocks -/

/-- Sorted as strings, the paths below a directory stand together. -/
theorem grouped_sorted {paths : List PyStr}
    (hsorted : paths.Pairwise fun a b => PyStr.lt b a = false) :
    Grouped (paths.map sep.components) := by
  intro p q r d hsub hp hr
  obtain ⟨picked, hpicked, hmap⟩ := List.sublist_map_iff.mp hsub
  obtain ⟨a, _, rfl, rfl, hqr⟩ := List.map_eq_cons_iff.mp hmap.symm
  obtain ⟨b, _, rfl, rfl, hr'⟩ := List.map_eq_cons_iff.mp hqr
  obtain ⟨c, rfl, rfl⟩ := List.map_eq_singleton_iff.mp hr'
  have horder := hsorted.sublist hpicked
  simp only [List.pairwise_cons, List.mem_cons, forall_eq_or_imp] at horder
  obtain ⟨hd, hpa⟩ := mem_dirs.mp hp
  have hrc := (mem_dirs.mp hr).2
  rw [sep.prefix_components_iff hd] at hpa hrc
  refine mem_dirs.mpr ⟨hd, (sep.prefix_components_iff hd).mpr ⟨hpa.1, ?_⟩⟩
  exact prefix_of_between horder.1.1 horder.2.1.1 hpa.2 hrc.2

/-! ## reading a line -/

/-- The depth, the name and the kind that a line shows. -/
def readLine (text : PyStr) : Nat × Option PyStr × Bool :=
  let depth := (text.takeWhile (· == 0x20)).length / 2
  let name := text.drop (2 * depth)
  if name.getLast? = some slash then (depth, some name.dropLast, true)
  else (depth, some name, false)

/-- The depth and the name are read back from an indented line. -/
theorem readLine_indent {depth : Nat} {name : PyStr} (h : ¬ [0x20, 0x20] <+: name) :
    readLine (indent depth ++ name) =
      if name.getLast? = some slash then (depth, some name.dropLast, true)
      else (depth, some name, false) := by
  have hspaces : (name.takeWhile (· == 0x20)).length < 2 := by
    by_contra hlt
    refine h ?_
    have htwo : (name.takeWhile (· == 0x20)).take 2 = List.replicate 2 0x20 := by
      refine List.eq_replicate_iff.mpr ⟨List.length_take_of_le (by omega), fun c hc => ?_⟩
      have hspace := List.mem_takeWhile_imp (List.mem_of_mem_take hc)
      exact beq_iff_eq.mp hspace
    have hpre : (name.takeWhile (· == 0x20)).take 2 <+: name :=
      (List.take_prefix _ _).trans (List.takeWhile_prefix _)
    rwa [htwo] at hpre
  have hcount : ((indent depth ++ name).takeWhile (· == 0x20)).length / 2 = depth := by
    rw [indent, List.takeWhile_append_of_pos (by simp), List.length_append,
      List.length_replicate]
    omega
  have hdrop : (indent depth ++ name).drop (2 * depth) = name := by
    rw [indent, List.drop_left' List.length_replicate]
  simp only [readLine, hcount, hdrop]

/-- The line of an entry is read back as its depth, its name and its kind. -/
theorem readLine_line {e : Entry PyStr} (hne : e.path ≠ [])
    (hfree : ∀ c ∈ e.path, slash ∉ c) (hspaces : ∀ c ∈ e.path, ¬ [0x20, 0x20] <+: c) :
    readLine (line e) = e.shape := by
  obtain ⟨front, name, hpath⟩ : ∃ front name, e.path = front ++ [name] :=
    ⟨_, _, (List.dropLast_append_getLast hne).symm⟩
  have hlast : e.path.getLastD [] = name := by rw [hpath, List.getLastD_concat]
  have hmem : name ∈ e.path := by rw [hpath]; exact List.mem_append_right front List.mem_cons_self
  have hshape : e.shape = (e.path.length - 1, some name, e.isDir) := by
    rw [Entry.shape, hpath, List.getLast?_concat]
  rw [hshape, line, hlast, List.append_assoc]
  cases hkind : e.isDir with
  | true =>
      have hplain : ¬ [0x20, 0x20] <+: name ++ [slash] := by
        intro h
        rcases List.prefix_concat_iff.mp h with heq | hpre
        · have hends := congrArg List.getLast? heq
          rw [List.getLast?_concat] at hends
          exact absurd hends (by decide)
        · exact hspaces name hmem hpre
      rw [if_pos rfl, readLine_indent hplain, if_pos List.getLast?_concat, List.dropLast_concat]
  | false =>
      have hends : name.getLast? ≠ some slash :=
        fun h => hfree name hmem (List.mem_of_getLast? h)
      rw [if_neg Bool.false_ne_true, List.append_nil, readLine_indent (hspaces name hmem),
        if_neg hends]

/-! ## reading the listing -/

theorem components_inj {path other : PyStr} (h : sep.components path = sep.components other) :
    path = other := by
  have hjoin : [slash].intercalate (path.splitOn slash) =
      [slash].intercalate (other.splitOn slash) := congrArg ([slash].intercalate) h
  rwa [List.intercalate_splitOn, List.intercalate_splitOn] at hjoin

/-- Every entry is a tracked path or a directory above one. -/
theorem path_of_mem_entries {paths : List PyStr} {e : Entry PyStr}
    (h : e ∈ entries [] (paths.map sep.components)) :
    e.path ≠ [] ∧ ∃ path ∈ paths, e.path <+: sep.components path := by
  obtain ⟨p, hp, hcases⟩ := mem_entries h
  obtain ⟨path, hpath, rfl⟩ := List.mem_map.mp hp
  rcases hcases with rfl | ⟨d, hd, -, rfl⟩
  · exact ⟨List.splitOn_ne_nil _ _, path, hpath, List.prefix_refl _⟩
  · exact ⟨(mem_dirs.mp hd).1, path, hpath, (mem_dirs.mp hd).2.1⟩

/-- The characters of a line are those of the path, or stand around the name. -/
theorem mem_line {paths : List PyStr} {e : Entry PyStr}
    (he : e ∈ entries [] (paths.map sep.components)) {c : CodePoint} (h : c ∈ line e) :
    c = 0x20 ∨ c = slash ∨ ∃ path ∈ paths, c ∈ path := by
  obtain ⟨hne, path, hpath, hpre⟩ := path_of_mem_entries he
  rw [line, List.mem_append, List.mem_append] at h
  rcases h with (h | h) | h
  · exact .inl (List.eq_of_mem_replicate h)
  · refine .inr (.inr ⟨path, hpath, ?_⟩)
    rw [List.getLastD_eq_getLast?, List.getLast?_eq_getLast_of_ne_nil hne, Option.getD_some] at h
    exact sep.mem_of_mem_components (hpre.subset (List.getLast_mem hne)) h
  · split at h
    · exact .inr (.inl (List.mem_singleton.mp h))
    · contradiction

/-- Lines that each end in a separator are read back, with an empty one behind them. -/
theorem splitOn_flatMap_sep {c : CodePoint} {strings : List PyStr} (h : ∀ s ∈ strings, c ∉ s) :
    (strings.flatMap fun s => s ++ [c]).splitOn c = strings ++ [[]] := by
  induction strings with
  | nil => rfl
  | cons s strings ih =>
      have hs := h s List.mem_cons_self
      rw [List.flatMap_cons, List.append_assoc, List.singleton_append,
        List.splitOn_append_cons_self_of_not_mem hs,
        ih fun t ht => h t (List.mem_cons_of_mem s ht), List.cons_append]

/-- The listing says which paths are in it. -/
theorem render_inj {paths others : List PyStr}
    (hpaths : paths.Pairwise fun a b => PyStr.lt b a = false)
    (hothers : others.Pairwise fun a b => PyStr.lt b a = false)
    (hplain : ∀ name ∈ paths, PlainName name) (hplain' : ∀ name ∈ others, PlainName name)
    (h : render paths = render others) : paths = others := by
  have hread : ∀ names : List PyStr, (names.Pairwise fun a b => PyStr.lt b a = false) →
      (∀ name ∈ names, PlainName name) →
      read [] ((((render names).drop (header.length + 1)).splitOn 0x0a).dropLast.map readLine) =
        names.map sep.components := by
    intro names hsorted hnames
    have hlf : ∀ l ∈ (entries [] (names.map sep.components)).map line, 0x0a ∉ l := by
      intro l hl hmem
      obtain ⟨e, he, rfl⟩ := List.mem_map.mp hl
      rcases mem_line he hmem with heq | heq | ⟨path, hpath, hc⟩
      · exact absurd heq (by decide)
      · exact absurd heq (by decide)
      · exact ((hnames path hpath).1 _ hc).1 rfl
    have hdrop : (render names).drop (header.length + 1) =
        ((entries [] (names.map sep.components)).map line).flatMap fun l => l ++ [0x0a] := by
      rw [render_eq, List.flatMap_map,
        List.drop_left' (by rw [List.length_append, List.length_singleton])]
    rw [hdrop, splitOn_flatMap_sep hlf, List.dropLast_concat, List.map_map]
    have hshape : ∀ e ∈ entries [] (names.map sep.components), (readLine ∘ line) e = e.shape := by
      intro e he
      obtain ⟨hne, path, hpath, hpre⟩ := path_of_mem_entries he
      exact readLine_line hne (fun c hc => sep.slash_not_mem (hpre.subset hc))
        fun c hc => (hnames path hpath).2 c (hpre.subset hc)
    rw [List.map_congr_left hshape]
    refine @read_entries _ _ [] _ _ _ (grouped_sorted hsorted) ?_ (by simp) (by simp)
    intro p hp
    obtain ⟨path, -, rfl⟩ := List.mem_map.mp hp
    exact List.splitOn_ne_nil _ _
  have hmap : paths.map sep.components = others.map sep.components := by
    rw [← hread paths hpaths hplain, ← hread others hothers hplain', h]
  exact List.map_injective_iff.mpr (fun _ _ => components_inj) hmap

/-! ## writing and checking -/

theorem mem_render {paths : List PyStr} {c : CodePoint} (h : c ∈ render paths) :
    c ∈ header ∨ c = 0x0a ∨ c = 0x20 ∨ c = slash ∨ ∃ path ∈ paths, c ∈ path := by
  rw [render_eq, List.mem_append, List.mem_append, List.mem_flatMap] at h
  rcases h with (h | h) | ⟨e, he, h⟩
  · exact .inl h
  · exact .inr (.inl (List.mem_singleton.mp h))
  · rcases List.mem_append.mp h with h | h
    · exact .inr (.inr (mem_line he h))
    · exact .inr (.inl (List.mem_singleton.mp h))

/-- The listing can be written if the names can. -/
theorem encodable_render {paths : List PyStr} (h : ∀ path ∈ paths, path.Encodable) :
    (render paths).Encodable := by
  intro c hc
  rcases mem_render hc with hc | rfl | rfl | rfl | ⟨path, hpath, hc⟩
  · exact (((encodable_lit _).append (encodable_lit _)).append (encodable_lit _)) c hc
  · rfl
  · rfl
  · rfl
  · exact h path hpath c hc

/-- What is read back of a listing that was written. -/
theorem current_render {paths : List PyStr} (henc : ∀ path ∈ paths, path.Encodable)
    (hplain : ∀ path ∈ paths, PlainName path) :
    current (some ((render paths).flatMap CodePoint.utf8)) = some (render paths) := by
  have hheader : ∀ c ∈ header, c ≠ 0x0d := by
    rw [header, List.forall_mem_append, List.forall_mem_append]
    exact ⟨⟨forall_of_all (by decide), forall_of_all (by decide)⟩, forall_of_all (by decide)⟩
  have hfree : ∀ c ∈ render paths, c ≠ 0x0d := by
    intro c hc
    rcases mem_render hc with hc | rfl | rfl | rfl | ⟨path, hpath, hc⟩
    · exact hheader c hc
    · decide
    · decide
    · decide
    · exact ((hplain path hpath).1 c hc).2
  rw [current, Utf8.decodeStrict_utf8 (encodable_render henc), Option.map_some,
    universalNewlines_free hfree]

/-- Without an argument the listing is written. -/
theorem main_write {git : Git} {paths : List PyStr} (h : trackedFiles git = some paths)
    (file : Option (List UInt8)) :
    (main [] git file).status = 0 ∧
      (main [] git file).file = some ((render paths).flatMap CodePoint.utf8) := by
  have hbytes := encodeUtf8_eq (encodable_render (trackedFiles_spec h).2.2.2)
  simp only [main, h, hbytes]
  exact ⟨rfl, rfl⟩

/-- With `--check` nothing is written, and the status says if the file is up to date. -/
theorem main_check (git : Git) (file : Option (List UInt8)) :
    (main [lit "--check"] git file).file = file ∧
      ((main [lit "--check"] git file).status = 0 ↔
        ∃ paths, trackedFiles git = some paths ∧ current file = some (render paths)) := by
  cases hpaths : trackedFiles git with
  | none => simp [main, hpaths]
  | some paths =>
      cases htext : current file with
      | none => simp [main, hpaths, htext]
      | some text =>
          by_cases hsame : text = render paths
          · simp [main, hpaths, htext, hsame]
          · simp [main, hpaths, htext, hsame]

/-- **Staleness**: after a listing was written, the check passes where the worktree has
the same paths to list, and only there. -/
theorem check_after_write {before after : Git} {file : Option (List UInt8)}
    (hwrite : (main [] before file).status = 0)
    (hplain : ∀ name, Lists before name ∨ Lists after name → PlainName name) :
    let written := (main [] before file).file
    let checked := main [lit "--check"] after written
    checked.file = written ∧
      (checked.status = 0 ↔
        (trackedFiles after).isSome ∧ ∀ name, Lists before name ↔ Lists after name) := by
  intro written checked
  obtain ⟨hkeeps, hstatus⟩ := main_check after written
  refine ⟨hkeeps, hstatus.trans ?_⟩
  obtain ⟨paths, hpaths⟩ : ∃ paths, trackedFiles before = some paths := by
    cases hpaths : trackedFiles before with
    | none => simp [main, hpaths] at hwrite
    | some paths => exact ⟨paths, rfl⟩
  obtain ⟨hmem, hnodup, hsorted, henc⟩ := trackedFiles_spec hpaths
  have hplainBefore : ∀ path ∈ paths, PlainName path :=
    fun path hpath => hplain path (.inl ((hmem path).mp hpath))
  have hcurrent : current written = some (render paths) := by
    rw [← current_render henc hplainBefore, ← (main_write hpaths file).2]
  rw [hcurrent]
  constructor
  · rintro ⟨others, hothers, htext⟩
    obtain ⟨hmem', -, hsorted', -⟩ := trackedFiles_spec hothers
    have hsame : paths = others := by
      refine render_inj hsorted hsorted' hplainBefore ?_ (Option.some.inj htext)
      exact fun path hpath => hplain path (.inr ((hmem' path).mp hpath))
    refine ⟨by rw [hothers]; rfl, fun name => ?_⟩
    rw [← hmem, ← hmem', hsame]
  · rintro ⟨hsome, hlists⟩
    obtain ⟨others, hothers⟩ := Option.isSome_iff_exists.mp hsome
    obtain ⟨hmem', hnodup', hsorted', -⟩ := trackedFiles_spec hothers
    refine ⟨others, hothers, congrArg (some ∘ render) ?_⟩
    refine eq_of_sorted hsorted hnodup hsorted' hnodup' fun name => ?_
    rw [hmem, hmem', hlists]

/-- What git prints before a rename that is not staged, and after it. -/
def beforeRename : Git where
  listed := some [0x61, 0x2f, 0x62, 0]
  deleted := some []

def afterRename : Git where
  listed := some [0x61, 0x2f, 0x62, 0, 0x61, 0x2f, 0x63, 0]
  deleted := some [0x61, 0x2f, 0x62, 0]

theorem check_after_rename :
    (main [lit "--check"] afterRename (main [] beforeRename none).file).status ≠ 0 := by
  have hbefore : trackedFiles beforeRename = some [output, lit "a/b"] := by decide
  have hafter : trackedFiles afterRename = some [output, lit "a/c"] := by decide
  have hmem := (trackedFiles_spec hbefore).1
  have hmem' := (trackedFiles_spec hafter).1
  have hplain : ∀ name, Lists beforeRename name ∨ Lists afterRename name → PlainName name := by
    intro name hname
    rw [← hmem, ← hmem', List.mem_pair, List.mem_pair] at hname
    rcases hname with (rfl | rfl) | (rfl | rfl)
    · exact ⟨forall_of_all (by decide), by decide⟩
    · exact ⟨forall_of_all (by decide), by decide⟩
    · exact ⟨forall_of_all (by decide), by decide⟩
    · exact ⟨forall_of_all (by decide), by decide⟩
  have hchecked := (check_after_write (main_write hbefore none).1 hplain).2
  intro hzero
  have hsame := (hchecked.mp hzero).2 (lit "a/b")
  rw [← hmem, ← hmem'] at hsame
  exact absurd (hsame.mp (by decide)) (by decide)

/-- **The tree**: every path has one line, in its place, and a directory one line in
front of all that is below it. -/
theorem listing_blocks {git : Git} {paths : List PyStr} (h : trackedFiles git = some paths) :
    ∃ es : List (Entry PyStr),
      render paths = header ++ [0x0a] ++ es.flatMap (fun e => line e ++ [0x0a]) ∧
      (∀ name, name ∈ paths ↔ Lists git name) ∧
      es.filter (fun e => !e.isDir) = paths.map (fun path => .file (sep.components path)) ∧
      (∀ d, .dir d ∈ es → ∃ path ∈ paths, d ∈ dirs (sep.components path)) ∧
      ∀ d, (∃ path ∈ paths, d ∈ dirs (sep.components path)) →
        ∃ before contents after, es = before ++ .dir d :: contents ++ after ∧
          (∀ e ∈ contents, e.Inside d) ∧
          ∀ e ∈ before ++ after, e ≠ .dir d ∧ ¬ e.Inside d := by
  obtain ⟨hmem, -, hsorted, -⟩ := trackedFiles_spec h
  refine ⟨entries [] (paths.map sep.components), render_eq paths, hmem, ?_, ?_, ?_⟩
  · rw [files_entries, List.map_map]
    rfl
  · intro d hd
    obtain ⟨p, hp, heq | ⟨c, hc, -, heq⟩⟩ := mem_entries hd
    · contradiction
    · obtain ⟨path, hpath, rfl⟩ := List.mem_map.mp hp
      obtain rfl := Entry.dir.inj heq
      exact ⟨path, hpath, hc⟩
  · rintro d ⟨path, hpath, hd⟩
    exact entries_block (grouped_sorted hsorted) ⟨_, List.mem_map_of_mem hpath, hd⟩

theorem listing_blocks_beforeRename :
    ∃ es : List (Entry PyStr),
      render [output, lit "a/b"] = header ++ [0x0a] ++ es.flatMap (fun e => line e ++ [0x0a]) ∧
      (∀ name, name ∈ [output, lit "a/b"] ↔ Lists beforeRename name) ∧
      es.filter (fun e => !e.isDir) =
        [output, lit "a/b"].map (fun path => .file (sep.components path)) ∧
      .dir [lit "a"] ∈ es := by
  obtain ⟨es, hrender, hmem, hfiles, -, hblocks⟩ :=
    @listing_blocks beforeRename [output, lit "a/b"] (by decide)
  obtain ⟨before, contents, after, hes, -⟩ := hblocks [lit "a"] (by decide)
  refine ⟨es, hrender, hmem, hfiles, ?_⟩
  rw [hes, List.mem_append, List.mem_append]
  exact .inl (.inr List.mem_cons_self)

end Structure

end SushidaOs
