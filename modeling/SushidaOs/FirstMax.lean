import Mathlib.Data.List.Induction
import Mathlib.Data.List.Perm.Basic
import Mathlib.Order.Lattice

/-!
# SushidaOs.FirstMax

Tables that keep, for each key, the first entry with the highest score.

`firstMax` picks that entry out of a list, and `upsert` is the update of such
a table, kept as a list in insertion order.  `mem_upserts` says what a run of
updates leaves in the table: for each key the first maximum of the entries
with this key.  `exists_perm_firstMax_take` says what becomes of the choice when
the list is cut first.

Nothing here is about a particular program.
-/

namespace SushidaOs

section FirstMax

variable {α ι : Type} [LinearOrder ι] (score : α → ι)

/-- Keep the entry at hand unless the new one is better. -/
def keepBetter (best : Option α) (a : α) : Option α :=
  match best with
  | none => some a
  | some b => if score b < score a then some a else some b

/-- The first entry with the highest score. -/
def firstMax (l : List α) : Option α := l.foldl (keepBetter score) none

variable {score}

/-- A maximum at hand is kept. -/
theorem foldl_keepBetter_some {b : α} {l : List α} (h : ∀ a ∈ l, score a ≤ score b) :
    l.foldl (keepBetter score) (some b) = some b := by
  induction l with
  | nil => rfl
  | cons a as ih =>
      have ha : ¬ score b < score a := not_lt.mpr (h a List.mem_cons_self)
      rw [List.foldl_cons, keepBetter, if_neg ha]
      exact ih fun c hc => h c (List.mem_cons_of_mem a hc)

theorem firstMax_append_singleton (l : List α) (a : α) :
    firstMax score (l ++ [a]) = keepBetter score (firstMax score l) a := by
  rw [firstMax, List.foldl_append]
  rfl

theorem keepBetter_ne_none (best : Option α) (a : α) : keepBetter score best a ≠ none := by
  unfold keepBetter
  split
  · simp
  · split
    · simp
    · simp

/-- The entry at hand stays below a bound on all entries. -/
theorem foldl_keepBetter_lt {x : ι} {best : Option α} {l : List α}
    (hbest : ∀ b, best = some b → score b < x) (h : ∀ b ∈ l, score b < x) {c : α}
    (hc : l.foldl (keepBetter score) best = some c) : score c < x := by
  induction l generalizing best with
  | nil => exact hbest c hc
  | cons a as ih =>
      have ha : score a < x := h a List.mem_cons_self
      refine ih ?_ (fun b hb => h b (List.mem_cons_of_mem a hb)) hc
      intro b hb
      unfold keepBetter at hb
      split at hb
      · rw [Option.some.injEq] at hb
        rw [← hb]
        exact ha
      · next d =>
          split at hb
          · rw [Option.some.injEq] at hb
            rw [← hb]
            exact ha
          · exact hbest b hb

/-- **First maximum**: what comes before is smaller, what comes after is not
larger. -/
theorem firstMax_eq_some_iff {l : List α} {a : α} :
    firstMax score l = some a ↔ ∃ before after : List α, l = before ++ a :: after ∧
      (∀ b ∈ before, score b < score a) ∧ ∀ b ∈ after, score b ≤ score a := by
  constructor
  · intro h
    induction l using List.reverseRecOn generalizing a with
    | nil => contradiction
    | append_singleton l c ih =>
        rw [firstMax_append_singleton] at h
        cases hl : firstMax score l with
        | none =>
            have hnil : l = [] := by
              cases l using List.reverseRecOn with
              | nil => rfl
              | append_singleton l' d =>
                  rw [firstMax_append_singleton] at hl
                  exact absurd hl (keepBetter_ne_none _ d)
            rw [hl] at h
            obtain rfl : c = a := by simpa [keepBetter] using h
            exact ⟨[], [], by rw [hnil], by simp, by simp⟩
        | some b =>
            obtain ⟨before, after, hsplit, hbefore, hafter⟩ := ih hl
            rw [hl, keepBetter] at h
            by_cases hlt : score b < score c
            · rw [if_pos hlt, Option.some.injEq] at h
              rw [← h]
              refine ⟨l, [], rfl, ?_, by simp⟩
              intro d hd
              rw [hsplit] at hd
              cases List.mem_append.mp hd with
              | inl hd => exact lt_trans (hbefore d hd) hlt
              | inr hd =>
                  cases List.mem_cons.mp hd with
                  | inl heq => rw [heq]; exact hlt
                  | inr hd => exact lt_of_le_of_lt (hafter d hd) hlt
            · rw [if_neg hlt, Option.some.injEq] at h
              rw [← h]
              refine ⟨before, after ++ [c], by rw [hsplit]; simp, hbefore, ?_⟩
              intro d hd
              cases List.mem_append.mp hd with
              | inl hd => exact hafter d hd
              | inr hd =>
                  rw [List.mem_singleton.mp hd]
                  exact not_lt.mp hlt
  · rintro ⟨before, after, hl, hbefore, hafter⟩
    rw [hl, firstMax, List.foldl_append, List.foldl_cons]
    have hstep : keepBetter score (before.foldl (keepBetter score) none) a = some a := by
      cases hbest : before.foldl (keepBetter score) none with
      | none => rfl
      | some c =>
          have hc := foldl_keepBetter_lt (x := score a) (by simp) hbefore hbest
          rw [keepBetter, if_pos hc]
    rw [hstep]
    exact foldl_keepBetter_some hafter

/-- Only the empty list has no maximum. -/
theorem firstMax_eq_none_iff {l : List α} : firstMax score l = none ↔ l = [] := by
  cases l using List.reverseRecOn with
  | nil => simp [firstMax]
  | append_singleton l a =>
      rw [firstMax_append_singleton]
      simp [keepBetter_ne_none]

/-- The choice depends on the scores only. -/
theorem firstMax_map {β : Type} (f : β → α) (l : List β) :
    firstMax score (l.map f) = (firstMax (fun b => score (f b)) l).map f := by
  induction l using List.reverseRecOn with
  | nil => rfl
  | append_singleton l b ih =>
      rw [List.map_append, List.map_singleton, firstMax_append_singleton,
        firstMax_append_singleton, ih]
      cases firstMax (fun b => score (f b)) l with
      | none => rfl
      | some c =>
          simp only [Option.map_some, keepBetter]
          split
          · rfl
          · rfl

theorem firstMax_cons_of_le {a : α} {l : List α} (h : ∀ b ∈ l, score b ≤ score a) :
    firstMax score (a :: l) = some a :=
  firstMax_eq_some_iff.mpr ⟨[], l, rfl, by simp, h⟩

/-- Nothing is above the maximum. -/
theorem le_of_firstMax {a b : α} {l : List α} (h : firstMax score l = some a) (hb : b ∈ l) :
    score b ≤ score a := by
  obtain ⟨before, after, rfl, hbefore, hafter⟩ := firstMax_eq_some_iff.mp h
  rcases List.mem_append.mp hb with hb | hb
  · exact (hbefore b hb).le
  rcases List.mem_cons.mp hb with rfl | hb
  · exact le_rfl
  · exact hafter b hb

theorem mem_of_firstMax {a : α} {l : List α} (h : firstMax score l = some a) : a ∈ l := by
  obtain ⟨before, after, rfl, -, -⟩ := firstMax_eq_some_iff.mp h
  exact List.mem_append_right before List.mem_cons_self

/-- With no two entries of one score, all but the first maximum are below it. -/
theorem countP_lt_firstMax {a : α} {l : List α} (hnodup : (l.map score).Nodup)
    (h : firstMax score l = some a) : l.countP (fun b => score b < score a) + 1 = l.length := by
  obtain ⟨before, after, rfl, hbefore, hafter⟩ := firstMax_eq_some_iff.mp h
  rw [List.map_append, List.map_cons, List.nodup_append, List.nodup_cons] at hnodup
  obtain ⟨-, ⟨hne, -⟩, -⟩ := hnodup
  have hfront : before.countP (fun b => score b < score a) = before.length :=
    List.countP_eq_length.mpr fun b hb => decide_eq_true (hbefore b hb)
  have hback : after.countP (fun b => score b < score a) = after.length := by
    refine List.countP_eq_length.mpr fun b hb => decide_eq_true (lt_of_le_of_ne (hafter b hb) ?_)
    intro heq
    exact hne (heq ▸ List.mem_map_of_mem hb)
  have hself : ¬ score a < score a := lt_irrefl _
  simp only [List.countP_append, List.countP_cons, hfront, hback, hself, decide_false,
    Bool.false_eq_true, if_false, List.length_append, List.length_cons]
  omega

/-- **A cut before the choice**: when only the first `n` entries are looked at, an
entry is chosen in some order exactly if it is the greatest of all, or greater
than `n - 1` others. -/
theorem exists_perm_firstMax_take [DecidableEq α] {a : α} {l : List α} {n : Nat}
    (hnodup : (l.map score).Nodup) (hn : 0 < n) :
    (∃ l' : List α, l'.Perm l ∧ firstMax score (l'.take n) = some a) ↔
      a ∈ l ∧ ((∀ b ∈ l, score b ≤ score a) ∨ n - 1 ≤ l.countP fun b => score b < score a) := by
  constructor
  · rintro ⟨l', hperm, hmax⟩
    refine ⟨hperm.mem_iff.mp (List.mem_of_mem_take (mem_of_firstMax hmax)), ?_⟩
    by_cases hlength : l'.length ≤ n
    · rw [List.take_of_length_le hlength] at hmax
      exact Or.inl fun b hb => le_of_firstMax hmax (hperm.mem_iff.mpr hb)
    · right
      have hnodup' : (l'.map score).Nodup := (hperm.map score).nodup_iff.mpr hnodup
      have hfront : ((l'.take n).map score).Nodup :=
        hnodup'.sublist ((List.take_sublist n l').map score)
      have hcount := countP_lt_firstMax hfront hmax
      have hsub : (l'.take n).countP (fun b => score b < score a) ≤
          l'.countP (fun b => score b < score a) := (List.take_sublist n l').countP_le
      rw [hperm.countP_eq] at hsub
      rw [List.length_take] at hcount
      omega
  · rintro ⟨hmem, hwins⟩
    let below := l.filter fun b => score b < score a
    let others := (l.filter fun b => !decide (score b < score a)).erase a
    have hothers : a ∈ l.filter fun b => !decide (score b < score a) := by simp [hmem]
    have hperm : (a :: (below ++ others)).Perm l := by
      refine List.perm_middle.symm.trans ?_
      exact ((List.perm_cons_erase hothers).symm.append_left below).trans
        (List.filter_append_perm _ l)
    obtain ⟨m, rfl⟩ := Nat.exists_eq_add_one.mpr hn
    refine ⟨a :: (below ++ others), hperm, ?_⟩
    rw [List.take_succ_cons]
    refine firstMax_cons_of_le fun b hb => ?_
    rcases hwins with hgreatest | hmany
    · exact hgreatest b (hperm.mem_iff.mp (List.mem_cons_of_mem a (List.mem_of_mem_take hb)))
    · have hbelow : m ≤ below.length := by
        rw [← List.countP_eq_length_filter]
        exact hmany
      rw [List.take_append_of_le_length hbelow] at hb
      have hb := List.of_mem_filter (List.mem_of_mem_take hb)
      exact (of_decide_eq_true hb).le

end FirstMax

/-! ## tables -/

section Table

variable {α κ ι : Type} [DecidableEq κ] [LinearOrder ι] (key : α → κ) (score : α → ι)

/-- Enter `a` unless there is an entry with its key that is as good. -/
def upsert (a : α) : List α → List α
  | [] => [a]
  | b :: bs =>
      if key b = key a then (if score b < score a then a :: bs else b :: bs)
      else b :: upsert a bs

variable {key score}

/-- An update leaves the entries of other keys. -/
theorem mem_upsert_of_key_ne {a b : α} {table : List α} (h : key b ≠ key a) :
    b ∈ upsert key score a table ↔ b ∈ table := by
  have hne : b ≠ a := fun heq => h (by rw [heq])
  induction table with
  | nil => simp [upsert, hne]
  | cons c cs ih =>
      unfold upsert
      by_cases hkey : key c = key a
      · have hbc : b ≠ c := fun heq => h (by rw [heq, hkey])
        rw [if_pos hkey]
        split
        · simp [hne, hbc]
        · simp [hbc]
      · rw [if_neg hkey]
        simp only [List.mem_cons, ih]

/-- A new key is put at the end. -/
theorem keys_upsert (a : α) (table : List α) :
    (upsert key score a table).map key =
      if key a ∈ table.map key then table.map key else table.map key ++ [key a] := by
  induction table with
  | nil => simp [upsert]
  | cons c cs ih =>
      unfold upsert
      by_cases hkey : key c = key a
      · have hmem : key a ∈ (c :: cs).map key := by simp [hkey]
        rw [if_pos hkey, if_pos hmem]
        split
        · simp [hkey]
        · rfl
      · rw [if_neg hkey, List.map_cons, ih]
        by_cases hmem : key a ∈ cs.map key
        · rw [if_pos hmem, if_pos (by rw [List.map_cons]; exact List.mem_cons_of_mem _ hmem)]
          rfl
        · have hnot : key a ∉ (c :: cs).map key := by
            rw [List.map_cons, List.mem_cons]
            exact not_or.mpr ⟨fun h => hkey h.symm, hmem⟩
          rw [if_neg hmem, if_neg hnot]
          rfl

theorem nodup_keys_upsert {a : α} {table : List α} (h : (table.map key).Nodup) :
    ((upsert key score a table).map key).Nodup := by
  rw [keys_upsert]
  split
  · exact h
  · next hnot =>
      rw [List.nodup_append]
      refine ⟨h, by simp, ?_⟩
      intro x hx y hy heq
      rw [List.mem_singleton] at hy
      rw [heq, hy] at hx
      exact hnot hx

/-- The entry with the key of `c` after `c` was entered; `best` is the one
before. -/
theorem mem_upsert_of_key_eq {a c : α} {best : Option α} {table : List α}
    (hnodup : (table.map key).Nodup) (hbest : ∀ b, best = some b → key b = key c)
    (hmem : ∀ b, key b = key c → (b ∈ table ↔ best = some b)) (hkey : key a = key c) :
    a ∈ upsert key score c table ↔ keepBetter score best c = some a := by
  induction table with
  | nil =>
      have hnone : best = none := by
        cases hb : best with
        | none => rfl
        | some b => exact absurd ((hmem b (hbest b hb)).mpr hb) (by simp)
      rw [upsert, hnone, keepBetter, List.mem_singleton, Option.some.injEq, eq_comm]
  | cons d ds ih =>
      rw [List.map_cons, List.nodup_cons] at hnodup
      unfold upsert
      by_cases hd : key d = key c
      · have hsome : best = some d := (hmem d hd).mp List.mem_cons_self
        have hnot : a ∉ ds := by
          intro ha
          have hin : key a ∈ ds.map key := List.mem_map_of_mem ha
          rw [hkey, ← hd] at hin
          exact hnodup.1 hin
        rw [if_pos hd, hsome, keepBetter]
        split
        · rw [List.mem_cons, or_iff_left hnot, Option.some.injEq, eq_comm]
        · rw [List.mem_cons, or_iff_left hnot, Option.some.injEq, eq_comm]
      · have hne : ∀ b, key b = key c → b ≠ d := by
          intro b hb heq
          exact hd (by rw [← heq, hb])
        have hrest : ∀ b, key b = key c → (b ∈ ds ↔ best = some b) := by
          intro b hb
          have hb' := hmem b hb
          rw [List.mem_cons, or_iff_right (hne b hb)] at hb'
          exact hb'
        rw [if_neg hd, List.mem_cons, or_iff_right (hne a hkey)]
        exact ih hnodup.2 hrest

/-- Enter a list of entries. -/
def upserts (key : α → κ) (score : α → ι) (l table : List α) : List α :=
  l.foldl (fun t a => upsert key score a t) table

/-- Each key stays in the table once. -/
theorem nodup_keys_upserts (l : List α) {table : List α} (h : (table.map key).Nodup) :
    ((upserts key score l table).map key).Nodup := by
  induction l generalizing table with
  | nil => exact h
  | cons a as ih => exact ih (nodup_keys_upsert h)

/-- **The table** after a list of entries: for each key the first maximum. -/
theorem mem_upserts {l : List α} {a : α} :
    a ∈ upserts key score l [] ↔
      firstMax score (l.filter fun b => key b = key a) = some a := by
  induction l using List.reverseRecOn generalizing a with
  | nil => simp [upserts, firstMax]
  | append_singleton l c ih =>
      have hstep : upserts key score (l ++ [c]) [] =
          upsert key score c (upserts key score l []) := by
        rw [upserts, List.foldl_append]
        rfl
      rw [hstep, List.filter_append]
      by_cases hkey : key a = key c
      · have hlast : [c].filter (fun b => decide (key b = key a)) = [c] := by simp [hkey]
        have hbest : ∀ b, firstMax score (l.filter fun b => key b = key c) = some b →
            key b = key c := by
          intro b hb
          obtain ⟨before, after, hsplit, -⟩ := firstMax_eq_some_iff.mp hb
          have hin : b ∈ l.filter fun b => decide (key b = key c) := by rw [hsplit]; simp
          simpa using (List.mem_filter.mp hin).2
        rw [hlast, firstMax_append_singleton, hkey]
        refine mem_upsert_of_key_eq (nodup_keys_upserts l (by simp)) hbest ?_ hkey
        intro b hb
        rw [ih, hb]
      · have hlast : [c].filter (fun b => decide (key b = key a)) = [] := by
          simp [Ne.symm hkey]
        rw [hlast, List.append_nil, mem_upsert_of_key_ne hkey, ih]

end Table

end SushidaOs
