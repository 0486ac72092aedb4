import Mathlib.Data.List.Infix
import Mathlib.Data.List.TakeWhile

/-!
# SushidaOs.PathTree

A list of paths printed as a tree: each path with the directories on its way that
were not printed before.

Paths are lists of components, over any type of components.  In a `Grouped` list
the paths below a directory stand together.  Then

* `entries_block`: each directory is printed once, in front of what is below it,
  and nothing else stands between;
* `read_entries`: depths and last components are enough to read the paths back.
-/

namespace SushidaOs

namespace PathTree

variable {β : Type}

/-! ## directories -/

/-- The directories on the way to a path, from the outside. -/
def dirs (p : List β) : List (List β) := (List.range' 1 (p.length - 1)).map fun n => p.take n

inductive Entry (β : Type) where
  | dir (path : List β)
  | file (path : List β)
  deriving DecidableEq, Repr

namespace Entry

def path : Entry β → List β
  | dir p => p
  | file p => p

def isDir : Entry β → Bool
  | dir _ => true
  | file _ => false

/-- What is seen of an entry: its depth, its last component and its kind. -/
def shape (e : Entry β) : Nat × Option β × Bool := (e.path.length - 1, e.path.getLast?, e.isDir)

/-- The entry is below a directory. -/
def Inside (d : List β) (e : Entry β) : Prop := d <+: e.path ∧ d ≠ e.path

end Entry

/-- The paths below a directory stand together. -/
def Grouped (paths : List (List β)) : Prop :=
  ∀ p q r d, List.Sublist [p, q, r] paths → d ∈ dirs p → d ∈ dirs r → d ∈ dirs q

section

variable [DecidableEq β]

/-- What is printed when the directories `seen` were printed before. -/
def entries (seen : List (List β)) : List (List β) → List (Entry β)
  | [] => []
  | p :: ps =>
      ((dirs p).filter fun d => d ∉ seen).map .dir ++ .file p :: entries (seen ++ dirs p) ps

end

/-- The paths that the shapes of entries describe; `place` is the last directory. -/
def read (place : List β) : List (Nat × Option β × Bool) → List (List β)
  | [] => []
  | (depth, name, true) :: rest => read (place.take depth ++ name.toList) rest
  | (depth, name, false) :: rest => (place.take depth ++ name.toList) :: read place rest

theorem mem_dirs {d p : List β} : d ∈ dirs p ↔ d ≠ [] ∧ d <+: p ∧ d ≠ p := by
  simp only [dirs, List.mem_map, List.mem_range'_1]
  constructor
  · rintro ⟨n, ⟨hlo, hhi⟩, rfl⟩
    have hlen : (p.take n).length = n := List.length_take_of_le (by omega)
    refine ⟨?_, List.take_prefix n p, ?_⟩
    · rw [ne_eq, ← List.length_eq_zero_iff, hlen]
      omega
    · intro heq
      rw [heq] at hlen
      omega
  · rintro ⟨hne, hpre, hnot⟩
    have hlt : d.length < p.length := by
      refine lt_of_le_of_ne hpre.length_le fun heq => hnot (hpre.eq_of_length heq)
    have hpos := List.length_pos_iff.mpr hne
    exact ⟨d.length, by omega, (List.prefix_iff_eq_take.mp hpre).symm⟩

/-- A directory on the way to a directory on the way. -/
theorem dirs_trans {c d p : List β} (hc : c ≠ []) (hcd : c <+: d) (hd : d ∈ dirs p) :
    c ∈ dirs p := by
  obtain ⟨-, hpre, hne⟩ := mem_dirs.mp hd
  refine mem_dirs.mpr ⟨hc, hcd.trans hpre, ?_⟩
  rintro rfl
  exact hne (hpre.eq_of_length (Nat.le_antisymm hpre.length_le hcd.length_le))

theorem inside_iff_mem_dirs {d p : List β} (hd : d ≠ []) (e : Entry β) (he : e.path = p) :
    e.Inside d ↔ d ∈ dirs p := by
  rw [mem_dirs, Entry.Inside, he]
  exact (and_iff_right hd).symm

/-! ## blocks -/

section

variable [DecidableEq β]

theorem entries_append (seen as bs : List (List β)) :
    entries seen (as ++ bs) = entries seen as ++ entries (seen ++ as.flatMap dirs) bs := by
  induction as generalizing seen with
  | nil => simp [entries]
  | cons a as ih => simp [entries, ih, List.append_assoc]

/-- Each entry is a path of the list, or a new directory of one. -/
theorem mem_entries {seen paths : List (List β)} {e : Entry β} (h : e ∈ entries seen paths) :
    ∃ p ∈ paths, e = .file p ∨ ∃ d ∈ dirs p, d ∉ seen ∧ e = .dir d := by
  induction paths generalizing seen with
  | nil => contradiction
  | cons p paths ih =>
      simp only [entries, List.mem_append, List.mem_map, List.mem_filter, decide_eq_true_eq,
        List.mem_cons] at h
      rcases h with ⟨d, ⟨hd, hseen⟩, rfl⟩ | rfl | h
      · exact ⟨p, List.mem_cons_self, .inr ⟨d, hd, hseen, rfl⟩⟩
      · exact ⟨p, List.mem_cons_self, .inl rfl⟩
      · obtain ⟨q, hq, hcases⟩ := ih h
        refine ⟨q, List.mem_cons_of_mem p hq, ?_⟩
        rcases hcases with rfl | ⟨d, hd, hseen, rfl⟩
        · exact .inl rfl
        · exact .inr ⟨d, hd, fun hmem => hseen (List.mem_append_left _ hmem), rfl⟩

/-- Each path is printed once and in its place. -/
theorem files_entries (seen paths : List (List β)) :
    (entries seen paths).filter (fun e => !e.isDir) = paths.map .file := by
  induction paths generalizing seen with
  | nil => rfl
  | cons p paths ih =>
      have hdirs : ∀ ds : List (List β), (ds.map Entry.dir).filter (fun e => !e.isDir) = [] := by
        intro ds
        rw [List.filter_map, List.map_eq_nil_iff, List.filter_eq_nil_iff]
        intro d _
        simp [Entry.isDir]
      rw [entries, List.filter_append, hdirs, List.nil_append,
        List.filter_cons_of_pos (by rfl), ih, List.map_cons]

/-- Paths that are not below a directory print nothing of it. -/
theorem outside_of_mem_entries {seen paths : List (List β)} {d : List β} (hd : d ≠ [])
    (hpaths : ∀ p ∈ paths, d ∉ dirs p) {e : Entry β} (h : e ∈ entries seen paths) :
    e ≠ .dir d ∧ ¬ e.Inside d := by
  obtain ⟨p, hp, rfl | ⟨c, hc, -, rfl⟩⟩ := mem_entries h
  · exact ⟨by simp, fun hin => hpaths p hp ((inside_iff_mem_dirs hd _ rfl).mp hin)⟩
  · refine ⟨?_, fun hin => hpaths p hp (dirs_trans hd hin.1 hc)⟩
    rintro heq
    rw [Entry.dir.injEq] at heq
    exact hpaths p hp (heq ▸ hc)

/-- Paths below a directory that was printed print what is below it. -/
theorem inside_of_mem_entries {seen paths : List (List β)} {d : List β}
    (hpaths : ∀ p ∈ paths, d ∈ dirs p) (hseen : ∀ c, c ≠ [] → c <+: d → c ∈ seen) {e : Entry β}
    (h : e ∈ entries seen paths) : e.Inside d := by
  obtain ⟨p, hp, rfl | ⟨c, hc, hnew, rfl⟩⟩ := mem_entries h
  · exact (mem_dirs.mp (hpaths p hp)).2
  · obtain ⟨hne, hcp, -⟩ := mem_dirs.mp hc
    have hdp := (mem_dirs.mp (hpaths p hp)).2.1
    rcases List.prefix_or_prefix_of_prefix hcp hdp with hcd | hdc
    · exact absurd (hseen c hne hcd) hnew
    · exact ⟨hdc, fun heq => hnew (hseen c hne (heq ▸ List.prefix_refl d))⟩

/-- The list falls into what is before the paths below a directory, these, and what is
behind them. -/
theorem Grouped.split {paths : List (List β)} (h : Grouped paths) {d : List β}
    (hd : ∃ p ∈ paths, d ∈ dirs p) :
    ∃ as b bs cs, paths = as ++ b :: bs ++ cs ∧ (∀ p ∈ as, d ∉ dirs p) ∧
      (∀ p ∈ b :: bs, d ∈ dirs p) ∧ ∀ p ∈ cs, d ∉ dirs p := by
  obtain ⟨p, hp, hdp⟩ := hd
  have hcut : paths = paths.takeWhile (fun q => d ∉ dirs q) ++
      paths.dropWhile (fun q => d ∉ dirs q) := List.takeWhile_append_dropWhile.symm
  have hbefore : ∀ q ∈ paths.takeWhile (fun q => d ∉ dirs q), d ∉ dirs q :=
    fun q hq => by simpa using List.mem_takeWhile_imp hq
  generalize paths.takeWhile (fun q => d ∉ dirs q) = as at hcut hbefore
  cases hrest : paths.dropWhile (fun q => d ∉ dirs q) with
  | nil =>
      rw [hrest, List.append_nil] at hcut
      exact absurd hdp (hbefore p (hcut ▸ hp))
  | cons b rest =>
      have hb : d ∈ dirs b := by
        have hhead := List.head?_dropWhile_not (fun q => decide (d ∉ dirs q)) paths
        rw [hrest] at hhead
        simpa using hhead
      rw [hrest] at hcut
      have hinner : rest = rest.takeWhile (fun q => d ∈ dirs q) ++
          rest.dropWhile (fun q => d ∈ dirs q) := List.takeWhile_append_dropWhile.symm
      refine ⟨as, b, rest.takeWhile (fun q => d ∈ dirs q), rest.dropWhile (fun q => d ∈ dirs q),
        ?_, hbefore, ?_, ?_⟩
      · rw [hcut, List.append_assoc, List.cons_append, ← hinner]
      · intro q hq
        rcases List.mem_cons.mp hq with rfl | hq
        · exact hb
        · simpa using List.mem_takeWhile_imp hq
      · -- A path below the directory further back would have the next path below it too.
        intro r hr hdr
        cases hafter : rest.dropWhile (fun q => d ∈ dirs q) with
        | nil => rw [hafter] at hr; contradiction
        | cons c after =>
            have hc : d ∉ dirs c := by
              have hhead := List.head?_dropWhile_not (fun q => decide (d ∈ dirs q)) rest
              rw [hafter] at hhead
              simpa using hhead
            rw [hafter] at hr
            have hne : r ≠ c := fun heq => hc (heq ▸ hdr)
            have hmem : r ∈ after := (List.mem_cons.mp hr).resolve_left hne
            have hsub : List.Sublist [b, c, r] paths := by
              rw [hcut]
              refine List.Sublist.trans (List.Sublist.cons_cons b ?_)
                (List.sublist_append_right as _)
              have htail : List.Sublist [c, r] (c :: after) :=
                List.Sublist.cons_cons c (List.singleton_sublist.mpr hmem)
              rw [← hafter] at htail
              exact htail.trans (List.dropWhile_sublist _)
            exact hc (h b c r d hsub hb hdr)

omit [DecidableEq β] in
/-- The directories of a path up to one of them. -/
theorem dirs_split {d p : List β} (h : d ∈ dirs p) :
    ∃ outer inner, dirs p = outer ++ d :: inner ∧ (∀ c ∈ outer, c <+: d ∧ c ≠ d) ∧
      ∀ c ∈ inner, d <+: c ∧ d ≠ c := by
  obtain ⟨n, hn, rfl⟩ := List.mem_map.mp h
  rw [List.mem_range'_1] at hn
  have hrange : List.range' 1 (p.length - 1) =
      List.range' 1 (n - 1) ++ n :: List.range' (n + 1) (p.length - 1 - n) := by
    have hsplit := List.range'_append_1 (s := 1) (m := n - 1) (n := p.length - 1 - n + 1)
    rw [List.range'_succ, (by omega : 1 + (n - 1) = n),
      (by omega : n - 1 + (p.length - 1 - n + 1) = p.length - 1)] at hsplit
    exact hsplit.symm
  have hlen : ∀ k, k < p.length → (p.take k).length = k :=
    fun k hk => List.length_take_of_le (by omega)
  have hlt : ∀ j k, j < k → k < p.length → p.take j <+: p.take k ∧ p.take j ≠ p.take k := by
    intro j k hjk hk
    refine ⟨List.take_prefix_take_left (by omega), fun heq => ?_⟩
    have hlens := congrArg List.length heq
    rw [hlen j (by omega), hlen k hk] at hlens
    omega
  refine ⟨(List.range' 1 (n - 1)).map fun k => p.take k,
    (List.range' (n + 1) (p.length - 1 - n)).map fun k => p.take k, ?_, ?_, ?_⟩
  · rw [dirs, hrange, List.map_append, List.map_cons]
  · intro c hc
    obtain ⟨k, hk, rfl⟩ := List.mem_map.mp hc
    rw [List.mem_range'_1] at hk
    exact hlt k n (by omega) (by omega)
  · intro c hc
    obtain ⟨k, hk, rfl⟩ := List.mem_map.mp hc
    rw [List.mem_range'_1] at hk
    exact hlt n k (by omega) (by omega)

/-- **Blocks**: a directory is printed once, then what is below it. -/
theorem entries_block {paths : List (List β)} (h : Grouped paths) {d : List β}
    (hd : ∃ p ∈ paths, d ∈ dirs p) :
    ∃ before contents after, entries [] paths = before ++ .dir d :: contents ++ after ∧
      (∀ e ∈ contents, e.Inside d) ∧ ∀ e ∈ before ++ after, e ≠ .dir d ∧ ¬ e.Inside d := by
  obtain ⟨as, b, bs, cs, rfl, has, hbs, hcs⟩ := h.split hd
  have hb := hbs b List.mem_cons_self
  have hne := (mem_dirs.mp hb).1
  obtain ⟨outer, inner, hdirs, houter, hinner⟩ := dirs_split hb
  have hnew : d ∉ as.flatMap dirs := by
    intro hmem
    obtain ⟨a, ha, hda⟩ := List.mem_flatMap.mp hmem
    exact has a ha hda
  refine ⟨entries [] as ++ (outer.filter fun c => c ∉ as.flatMap dirs).map .dir,
    (inner.filter fun c => c ∉ as.flatMap dirs).map .dir ++
      .file b :: entries (as.flatMap dirs ++ dirs b) bs,
    entries ((as ++ b :: bs).flatMap dirs) cs, ?_, ?_, ?_⟩
  · have hfilter : (dirs b).filter (fun c => c ∉ as.flatMap dirs) =
        outer.filter (fun c => c ∉ as.flatMap dirs) ++
          d :: inner.filter fun c => c ∉ as.flatMap dirs := by
      rw [hdirs, List.filter_append, List.filter_cons_of_pos (by simpa using hnew)]
    rw [entries_append, entries_append, List.nil_append, List.nil_append, entries, hfilter]
    simp only [List.map_append, List.map_cons, List.append_assoc, List.cons_append]
  · intro e he
    rcases List.mem_append.mp he with he | he
    · obtain ⟨c, hc, rfl⟩ := List.mem_map.mp he
      exact hinner c (List.mem_filter.mp hc).1
    rcases List.mem_cons.mp he with rfl | he
    · exact (mem_dirs.mp hb).2
    · refine inside_of_mem_entries (fun p hp => hbs p (List.mem_cons_of_mem b hp)) ?_ he
      intro c hc hcd
      exact List.mem_append_right _ (dirs_trans hc hcd hb)
  · intro e he
    rcases List.mem_append.mp he with he | he
    · rcases List.mem_append.mp he with he | he
      · exact outside_of_mem_entries hne has he
      · obtain ⟨c, hc, rfl⟩ := List.mem_map.mp he
        obtain ⟨hcd, hcne⟩ := houter c (List.mem_filter.mp hc).1
        refine ⟨by simpa using hcne, fun hin => hcne ?_⟩
        exact hcd.eq_of_length (Nat.le_antisymm hcd.length_le hin.1.length_le)
    · exact outside_of_mem_entries hne hcs he

end

/-! ## reading -/

/-- What is left of consecutive numbers when a part at their start is dropped. -/
theorem filter_range' {s : Nat → Prop} [DecidablePred s] {a : Nat}
    (hclosed : ∀ n, a ≤ n → s (n + 1) → s n) (m : Nat) :
    ∃ k ≤ m, (List.range' a m).filter (fun n => ¬ s n) = List.range' (a + k) (m - k) ∧
      (k = 0 ∨ s (a + k - 1)) := by
  induction m generalizing a with
  | zero => exact ⟨0, Nat.le_refl 0, rfl, .inl rfl⟩
  | succ m ih =>
      obtain ⟨k, hk, hfilter, hlast⟩ := @ih (a + 1) fun n hn => hclosed n (by omega)
      by_cases ha : s a
      · refine ⟨k + 1, by omega, ?_, ?_⟩
        · rw [List.range'_succ, List.filter_cons_of_neg (by simpa using ha), hfilter]
          congr 1 <;> omega
        · rcases hlast with rfl | hlast
          · exact .inr ha
          · exact .inr (by rwa [(by omega : a + (k + 1) - 1 = a + 1 + k - 1)])
      · -- Nothing behind a number that stays is dropped.
        have hzero : k = 0 := by
          by_contra hpos
          have hs := hlast.resolve_left hpos
          have hdown : ∀ n, s (a + n) → s a := by
            intro n
            induction n with
            | zero => exact id
            | succ n ih' => exact fun h => ih' (hclosed (a + n) (by omega) h)
          exact ha (hdown k (by rwa [(by omega : a + 1 + k - 1 = a + k)] at hs))
        refine ⟨0, Nat.zero_le _, ?_, .inl rfl⟩
        rw [List.range'_succ, List.filter_cons_of_pos (by simpa using ha), hfilter, hzero]
        rfl

theorem take_succ_of_lt {p : List β} {j : Nat} (hj : j < p.length) :
    ∃ x, p.take (j + 1) = p.take j ++ [x] ∧ (p.take (j + 1)).getLast? = some x := by
  obtain ⟨x, hx⟩ : ∃ x, p[j]? = some x := ⟨p[j], List.getElem?_eq_getElem hj⟩
  have htake : p.take (j + 1) = p.take j ++ [x] := by rw [List.take_add_one, hx]; rfl
  exact ⟨x, htake, by rw [htake, List.getLast?_concat]⟩

/-- Directories one below the other are read from any place that agrees with the path
so far. -/
theorem read_dirs {p place : List β} {j : Nat} (m : Nat) (hplace : place.take j = p.take j)
    (hle : j + m < p.length) (tail : List (Nat × Option β × Bool)) :
    ∃ place', read place
        ((List.range' (j + 1) m).map (fun n => (Entry.dir (p.take n)).shape) ++ tail) =
          read place' tail ∧ place'.take (j + m) = p.take (j + m) := by
  induction m generalizing j place with
  | zero => exact ⟨place, rfl, hplace⟩
  | succ m ih =>
      obtain ⟨x, htake, hlast⟩ := take_succ_of_lt (by omega : j < p.length)
      have hlen : (p.take (j + 1)).length - 1 = j := by
        rw [List.length_take_of_le (by omega)]
        rfl
      have hshape : (Entry.dir (p.take (j + 1))).shape = (j, some x, true) := by
        simp only [Entry.shape, Entry.path, Entry.isDir, hlen, hlast]
      have hnext : place.take j ++ (some x).toList = p.take (j + 1) := by rw [hplace, htake]; rfl
      obtain ⟨place', hread, hagree⟩ := @ih (p.take (j + 1)) (j + 1)
        (by rw [List.take_take, Nat.min_self]) (by omega)
      refine ⟨place', ?_, by rwa [(by omega : j + (m + 1) = j + 1 + m)]⟩
      rw [List.range'_succ, List.map_cons, List.cons_append, hshape, read, hnext]
      exact hread

variable [DecidableEq β]

/-- **The shapes determine the paths.** -/
theorem read_entries {done seen paths : List (List β)} {place : List β}
    (hgrouped : Grouped (done ++ paths)) (hne : ∀ p ∈ paths, p ≠ [])
    (hseen : ∀ d, d ∈ seen ↔ ∃ p ∈ done, d ∈ dirs p)
    (hplace : ∀ p ∈ paths, ∀ d ∈ dirs p, d ∈ seen → d <+: place) :
    read place ((entries seen paths).map Entry.shape) = paths := by
  induction paths generalizing done seen place with
  | nil => rfl
  | cons p paths ih =>
      have hp := hne p List.mem_cons_self
      have hpos := List.length_pos_iff.mpr hp
      have hclosed : ∀ n, 1 ≤ n → p.take (n + 1) ∈ seen → p.take n ∈ seen := by
        intro n hn hmem
        obtain ⟨q, hq, hdq⟩ := (hseen _).mp hmem
        refine (hseen _).mpr ⟨q, hq, dirs_trans ?_ (List.take_prefix_take_left (by omega)) hdq⟩
        rw [ne_eq, List.take_eq_nil_iff, not_or]
        exact ⟨by omega, hp⟩
      obtain ⟨k, hk, hfilter, hlast⟩ :=
        @filter_range' (fun n => p.take n ∈ seen) _ 1 hclosed (p.length - 1)
      have hnew : (dirs p).filter (fun d => d ∉ seen) =
          (List.range' (1 + k) (p.length - 1 - k)).map fun n => p.take n := by
        rw [dirs, List.filter_map, ← hfilter]
        rfl
      have hstart : place.take k = p.take k := by
        rcases hlast with rfl | hlast
        · rfl
        · rcases Nat.eq_zero_or_pos k with rfl | hkpos
          · rfl
          rw [(by omega : 1 + k - 1 = k)] at hlast
          have hdir : p.take k ∈ dirs p :=
            List.mem_map.mpr ⟨k, List.mem_range'_1.mpr ⟨hkpos, by omega⟩, rfl⟩
          have hpre := hplace p List.mem_cons_self _ hdir hlast
          have hlen : (p.take k).length = k := List.length_take_of_le (by omega)
          rw [List.prefix_iff_eq_take, hlen] at hpre
          exact hpre.symm
      obtain ⟨x, htake, hgetLast⟩ := take_succ_of_lt (by omega : p.length - 1 < p.length)
      rw [(by omega : p.length - 1 + 1 = p.length), List.take_length] at htake hgetLast
      have hfile : (Entry.file p).shape = (p.length - 1, some x, false) := by
        simp only [Entry.shape, Entry.path, Entry.isDir, hgetLast]
      obtain ⟨place', hread, hagree⟩ := read_dirs (p.length - 1 - k) hstart (by omega)
        ((Entry.file p).shape :: (entries (seen ++ dirs p) paths).map Entry.shape)
      rw [(by omega : k + (p.length - 1 - k) = p.length - 1)] at hagree
      have hrest := @ih (done ++ [p]) (seen ++ dirs p) place'
        (by simpa using hgrouped) (fun q hq => hne q (List.mem_cons_of_mem p hq))
        (by
          intro d
          simp only [List.mem_append, hseen, List.mem_singleton, or_and_right, exists_or,
            exists_eq_left])
        (by
          intro r hr d hdr hmem
          have hdp : d ∈ dirs p := by
            rcases List.mem_append.mp hmem with hold | hnow
            · -- A directory that was printed for an earlier path is one of this path too.
              obtain ⟨q, hq, hdq⟩ := (hseen d).mp hold
              refine hgrouped q p r d ?_ hdq hdr
              exact List.Sublist.append (List.singleton_sublist.mpr hq)
                (List.Sublist.cons_cons p (List.singleton_sublist.mpr hr))
            · exact hnow
          obtain ⟨n, hn, rfl⟩ := List.mem_map.mp hdp
          rw [List.mem_range'_1] at hn
          have hsame : place'.take n = p.take n := by
            rw [← Nat.min_eq_left (by omega : n ≤ p.length - 1), ← List.take_take, hagree,
              List.take_take]
          rw [← hsame]
          exact List.take_prefix n place')
      rw [entries, hnew, List.map_append, List.map_cons, List.map_map, List.map_map]
      rw [(by omega : 1 + k = k + 1)]
      refine hread.trans ?_
      rw [hfile, read, hrest, hagree, Option.toList_some, ← htake]

end PathTree

end SushidaOs
