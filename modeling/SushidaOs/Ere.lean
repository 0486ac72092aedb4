import Mathlib.Data.List.Forall2
import Mathlib.Data.List.Infix

/-!
# SushidaOs.Ere

Regular expressions as POSIX tools match them: sets of characters, sequences,
alternatives and repetitions, over any alphabet, and the longest match at a place.

`Matches` is what an expression means and `deriv` how it is computed
(`deriv_iff`, `longest_spec`).
-/

namespace SushidaOs

inductive Ere (α : Type) where
  | none
  | empty
  | set (p : α → Bool)
  | seq (r s : Ere α)
  | alt (r s : Ere α)
  | star (r : Ere α)

namespace Ere

variable {α : Type}

inductive Matches : Ere α → List α → Prop where
  | empty : Matches .empty []
  | set {p : α → Bool} {a : α} (h : p a = true) : Matches (.set p) [a]
  | seq {r s : Ere α} {t u : List α} (hr : Matches r t) (hs : Matches s u) :
      Matches (.seq r s) (t ++ u)
  | left {r s : Ere α} {t : List α} (h : Matches r t) : Matches (.alt r s) t
  | right {r s : Ere α} {t : List α} (h : Matches s t) : Matches (.alt r s) t
  | starNil {r : Ere α} : Matches (.star r) []
  | starCons {r : Ere α} {t u : List α} (hr : Matches r t) (hs : Matches (.star r) u) :
      Matches (.star r) (t ++ u)

/-- `r+` -/
def plus (r : Ere α) : Ere α := .seq r (.star r)

/-- `r?` -/
def opt (r : Ere α) : Ere α := .alt .empty r

/-- `r{n}` -/
def rep (r : Ere α) : Nat → Ere α
  | 0 => .empty
  | n + 1 => .seq r (rep r n)

/-- One character after another. -/
def sets (ps : List (α → Bool)) : Ere α := ps.foldr (fun p r => .seq (.set p) r) .empty

/-- `(r|s|…)` -/
def alts (rs : List (Ere α)) : Ere α := rs.foldr .alt .none

def nullable : Ere α → Bool
  | none => false
  | empty => true
  | set _ => false
  | seq r s => nullable r && nullable s
  | alt r s => nullable r || nullable s
  | star _ => true

/-- What is left to match behind a character. -/
def deriv (a : α) : Ere α → Ere α
  | none => .none
  | empty => .none
  | set p => if p a then .empty else .none
  | seq r s =>
      if nullable r then .alt (.seq (deriv a r) s) (deriv a s) else .seq (deriv a r) s
  | alt r s => .alt (deriv a r) (deriv a s)
  | star r => .seq (deriv a r) (.star r)

/-- The length of the longest match at the beginning of a text. -/
def longest (r : Ere α) : List α → Option Nat
  | [] => if nullable r then some 0 else Option.none
  | a :: text =>
      match longest (deriv a r) text with
      | some n => some (n + 1)
      | Option.none => if nullable r then some 0 else Option.none

/-! ## meaning -/

theorem matches_none {t : List α} : ¬ Matches none t := by
  intro h
  cases h

@[simp] theorem matches_empty {t : List α} : Matches empty t ↔ t = [] := by
  constructor
  · intro h
    cases h
    rfl
  · rintro rfl
    exact .empty

@[simp] theorem matches_set {p : α → Bool} {t : List α} :
    Matches (set p) t ↔ ∃ a, p a = true ∧ t = [a] := by
  constructor
  · intro h
    cases h with
    | set h => exact ⟨_, h, rfl⟩
  · rintro ⟨a, h, rfl⟩
    exact .set h

theorem matches_seq {r s : Ere α} {t : List α} :
    Matches (seq r s) t ↔ ∃ u v, t = u ++ v ∧ Matches r u ∧ Matches s v := by
  constructor
  · intro h
    cases h with
    | seq hr hs => exact ⟨_, _, rfl, hr, hs⟩
  · rintro ⟨u, v, rfl, hr, hs⟩
    exact .seq hr hs

theorem matches_alt {r s : Ere α} {t : List α} :
    Matches (alt r s) t ↔ Matches r t ∨ Matches s t := by
  constructor
  · intro h
    cases h with
    | left h => exact .inl h
    | right h => exact .inr h
  · exact fun h => h.elim .left .right

/-- `nullable` says whether the empty text matches. -/
theorem nullable_iff (r : Ere α) : nullable r = true ↔ Matches r [] := by
  induction r with
  | none => exact iff_of_false Bool.false_ne_true matches_none
  | empty => exact ⟨fun _ => .empty, fun _ => rfl⟩
  | set p => exact iff_of_false Bool.false_ne_true (by simp)
  | seq r s hr hs =>
      rw [nullable, Bool.and_eq_true, hr, hs, matches_seq]
      constructor
      · rintro ⟨h, h'⟩
        exact ⟨[], [], rfl, h, h'⟩
      · rintro ⟨u, v, huv, h, h'⟩
        obtain ⟨rfl, rfl⟩ := List.append_eq_nil_iff.mp huv.symm
        exact ⟨h, h'⟩
  | alt r s hr hs => rw [nullable, Bool.or_eq_true, hr, hs, matches_alt]
  | star r => exact ⟨fun _ => .starNil, fun _ => rfl⟩

/-- A repetition that matches something begins with a match that is something. -/
theorem star_cons {r : Ere α} {a : α} {t : List α} (h : Matches (star r) (a :: t)) :
    ∃ u v, t = u ++ v ∧ Matches r (a :: u) ∧ Matches (star r) v := by
  generalize hs : star r = s at h
  generalize ht : a :: t = text at h
  induction h generalizing t with
  | starNil => cases ht
  | @starCons r' u v hr hv _ ih =>
      obtain rfl : r = r' := Ere.star.inj hs
      cases u with
      | nil => exact ih hs ht
      | cons b u =>
          obtain ⟨rfl, rfl⟩ := List.cons.inj ht
          exact ⟨u, v, rfl, hr, hv⟩
  | _ => cases hs

/-- **The derivative**: what is left of an expression behind a character. -/
theorem deriv_iff {a : α} {r : Ere α} {t : List α} :
    Matches (deriv a r) t ↔ Matches r (a :: t) := by
  induction r generalizing t with
  | none => exact iff_of_false matches_none matches_none
  | empty => exact iff_of_false matches_none (by simp)
  | set p =>
      rw [deriv]
      split
      · next h => simp [h]
      · next h => exact iff_of_false matches_none (by simp [h])
  | seq r s hr hs =>
      have hfront : Matches (seq (deriv a r) s) t ↔
          ∃ u v, t = u ++ v ∧ Matches r (a :: u) ∧ Matches s v := by
        simp only [matches_seq, hr]
      have hwhole : Matches (seq r s) (a :: t) ↔
          (∃ u v, t = u ++ v ∧ Matches r (a :: u) ∧ Matches s v) ∨
            Matches r [] ∧ Matches s (a :: t) := by
        rw [matches_seq]
        constructor
        · rintro ⟨u, v, huv, hu, hv⟩
          cases u with
          | nil => exact .inr ⟨hu, huv ▸ hv⟩
          | cons b u =>
              obtain ⟨rfl, rfl⟩ := List.cons.inj huv
              exact .inl ⟨u, v, rfl, hu, hv⟩
        · rintro (⟨u, v, rfl, hu, hv⟩ | ⟨hnil, hv⟩)
          · exact ⟨a :: u, v, rfl, hu, hv⟩
          · exact ⟨[], a :: t, rfl, hnil, hv⟩
      rw [deriv, hwhole, ← nullable_iff]
      split
      · next h => rw [matches_alt, hfront, hs, h]; simp
      · next h => rw [hfront, (Bool.not_eq_true _).mp h]; simp
  | alt r s hr hs => rw [deriv, matches_alt, matches_alt, hr, hs]
  | star r hr =>
      rw [deriv, matches_seq]
      constructor
      · rintro ⟨u, v, rfl, hu, hv⟩
        exact .starCons (hr.mp hu) hv
      · intro h
        obtain ⟨u, v, rfl, hu, hv⟩ := star_cons h
        exact ⟨u, v, rfl, hr.mpr hu, hv⟩

/-- The longest match is a match and none is longer. -/
theorem longest_spec (r : Ere α) (text : List α) :
    (∀ n, longest r text = some n → n ≤ text.length ∧ Matches r (text.take n)) ∧
      ∀ m, m <+: text → Matches r m → ∃ n, longest r text = some n ∧ m.length ≤ n := by
  induction text generalizing r with
  | nil =>
      rw [longest]
      constructor
      · intro n h
        split at h
        · next hnull =>
            obtain rfl := Option.some.inj h
            exact ⟨Nat.le_refl 0, (nullable_iff r).mp hnull⟩
        · cases h
      · intro m hm h
        obtain rfl := List.prefix_nil.mp hm
        rw [if_pos ((nullable_iff r).mpr h)]
        exact ⟨0, rfl, Nat.le_refl 0⟩
  | cons a text ih =>
      obtain ⟨hsome, hlong⟩ := ih (deriv a r)
      rw [longest]
      cases hrest : longest (deriv a r) text with
      | some k =>
          obtain ⟨hk, hmatch⟩ := hsome k hrest
          refine ⟨fun n hn => ?_, fun m hm h => ⟨k + 1, rfl, ?_⟩⟩
          · obtain rfl := Option.some.inj hn
            exact ⟨Nat.succ_le_succ hk, deriv_iff.mp hmatch⟩
          · cases m with
            | nil => exact Nat.zero_le _
            | cons b m =>
                obtain ⟨rfl, hfront⟩ := List.cons_prefix_cons.mp hm
                obtain ⟨n, hn, hle⟩ := hlong m hfront (deriv_iff.mpr h)
                obtain rfl := Option.some.inj (hrest.symm.trans hn)
                exact Nat.succ_le_succ hle
      | none =>
          refine ⟨fun n hn => ?_, fun m hm h => ?_⟩
          · simp only at hn
            split at hn
            · next hnull =>
                obtain rfl := Option.some.inj hn
                exact ⟨Nat.zero_le _, (nullable_iff r).mp hnull⟩
            · cases hn
          · cases m with
            | nil =>
                simp only
                rw [if_pos ((nullable_iff r).mpr h)]
                exact ⟨0, rfl, Nat.le_refl 0⟩
            | cons b m =>
                obtain ⟨rfl, hfront⟩ := List.cons_prefix_cons.mp hm
                obtain ⟨n, hn, -⟩ := hlong m hfront (deriv_iff.mpr h)
                rw [hrest] at hn
                cases hn

/-- There is no longest match where nothing matches. -/
theorem longest_eq_none_iff {r : Ere α} {text : List α} :
    longest r text = Option.none ↔ ∀ m, m <+: text → ¬ Matches r m := by
  obtain ⟨hsome, hlong⟩ := longest_spec r text
  constructor
  · intro h m hm hmatch
    obtain ⟨n, hn, -⟩ := hlong m hm hmatch
    rw [h] at hn
    cases hn
  · intro h
    cases hn : longest r text with
    | none => rfl
    | some n => exact absurd (hsome n hn).2 (h _ (List.take_prefix n text))

/-- The longest match is a match that no other is longer than. -/
theorem longest_eq_some_iff {r : Ere α} {text : List α} {n : Nat} :
    longest r text = some n ↔ n ≤ text.length ∧ Matches r (text.take n) ∧
      ∀ m, m <+: text → Matches r m → m.length ≤ n := by
  obtain ⟨hsome, hlong⟩ := longest_spec r text
  constructor
  · intro h
    obtain ⟨hle, hmatch⟩ := hsome n h
    refine ⟨hle, hmatch, fun m hm hm' => ?_⟩
    obtain ⟨k, hk, hlek⟩ := hlong m hm hm'
    obtain rfl := Option.some.inj (h.symm.trans hk)
    exact hlek
  · rintro ⟨hle, hmatch, hmax⟩
    obtain ⟨k, hk, hlek⟩ := hlong _ (List.take_prefix n text) hmatch
    obtain ⟨hkle, hkmatch⟩ := hsome k hk
    have hkn := hmax _ (List.take_prefix k text) hkmatch
    rw [List.length_take_of_le hle] at hlek
    rw [List.length_take_of_le hkle] at hkn
    rw [hk, Nat.le_antisymm hkn hlek]

/-- All characters of the sets of an expression. -/
def Over (q : α → Prop) : Ere α → Prop
  | none => True
  | empty => True
  | set p => ∀ a, p a = true → q a
  | seq r s => Over q r ∧ Over q s
  | alt r s => Over q r ∧ Over q s
  | star r => Over q r

/-- The characters of a match are those of the sets. -/
theorem Over.forall_mem {q : α → Prop} {r : Ere α} (hr : Over q r) {t : List α}
    (h : Matches r t) : ∀ a ∈ t, q a := by
  induction h with
  | empty => simp
  | set h => exact fun a ha => List.mem_singleton.mp ha ▸ hr _ h
  | seq _ _ ihr ihs => exact fun a ha => (List.mem_append.mp ha).elim (ihr hr.1 a) (ihs hr.2 a)
  | left _ ih => exact ih hr.1
  | right _ ih => exact ih hr.2
  | starNil => simp
  | starCons _ _ ihr ihs => exact fun a ha => (List.mem_append.mp ha).elim (ihr hr a) (ihs hr a)

theorem matches_star_set {p : α → Bool} {t : List α} :
    Matches (star (set p)) t ↔ ∀ a ∈ t, p a = true := by
  constructor
  · intro h
    have hover : Over (fun a => p a = true) (star (set p)) := fun _ ha => ha
    exact hover.forall_mem h
  · intro h
    induction t with
    | nil => exact .starNil
    | cons a t ih =>
        rw [List.forall_mem_cons] at h
        exact .starCons (t := [a]) (.set h.1) (ih h.2)

theorem matches_plus_set {p : α → Bool} {t : List α} :
    Matches (plus (set p)) t ↔ t ≠ [] ∧ ∀ a ∈ t, p a = true := by
  rw [plus, matches_seq]
  constructor
  · rintro ⟨u, v, rfl, hu, hv⟩
    obtain ⟨a, ha, rfl⟩ := matches_set.mp hu
    exact ⟨List.cons_ne_nil a v, List.forall_mem_cons.mpr ⟨ha, matches_star_set.mp hv⟩⟩
  · rintro ⟨hne, h⟩
    cases t with
    | nil => exact absurd rfl hne
    | cons a t =>
        rw [List.forall_mem_cons] at h
        exact ⟨[a], t, rfl, .set h.1, matches_star_set.mpr h.2⟩

/-- A sequence of sets, character by character. -/
theorem matches_sets {ps : List (α → Bool)} {t : List α} :
    Matches (sets ps) t ↔ List.Forall₂ (fun p a => p a = true) ps t := by
  induction ps generalizing t with
  | nil => rw [List.forall₂_nil_left_iff]; exact matches_empty
  | cons p ps ih =>
      rw [List.forall₂_cons_left_iff]
      refine matches_seq.trans ⟨?_, ?_⟩
      · rintro ⟨u, v, rfl, hu, hv⟩
        obtain ⟨a, ha, rfl⟩ := matches_set.mp hu
        exact ⟨a, v, ha, ih.mp hv, rfl⟩
      · rintro ⟨a, v, ha, hv, rfl⟩
        exact ⟨[a], v, rfl, .set ha, ih.mpr hv⟩

/-- One of the alternatives. -/
theorem matches_alts {rs : List (Ere α)} {t : List α} :
    Matches (alts rs) t ↔ ∃ r ∈ rs, Matches r t := by
  induction rs with
  | nil => exact iff_of_false matches_none (by simp)
  | cons r rs ih =>
      rw [List.exists_mem_cons_iff]
      exact matches_alt.trans (or_congr_right ih)

theorem matches_rep_succ {r : Ere α} {n : Nat} {t : List α} :
    Matches (rep r (n + 1)) t ↔ ∃ u v, t = u ++ v ∧ Matches r u ∧ Matches (rep r n) v :=
  matches_seq

/-- So many characters of a set. -/
theorem matches_rep_set {p : α → Bool} {n : Nat} {t : List α} :
    Matches (rep (set p) n) t ↔ t.length = n ∧ ∀ a ∈ t, p a = true := by
  induction n generalizing t with
  | zero =>
      rw [List.length_eq_zero_iff]
      refine matches_empty.trans ⟨?_, And.left⟩
      rintro rfl
      exact ⟨rfl, List.forall_mem_nil _⟩
  | succ n ih =>
      rw [matches_rep_succ]
      constructor
      · rintro ⟨u, v, rfl, hu, hv⟩
        obtain ⟨a, ha, rfl⟩ := matches_set.mp hu
        obtain ⟨hlen, hall⟩ := ih.mp hv
        exact ⟨congrArg Nat.succ hlen, List.forall_mem_cons.mpr ⟨ha, hall⟩⟩
      · rintro ⟨hlen, hall⟩
        cases t with
        | nil => cases hlen
        | cons a t =>
            rw [List.forall_mem_cons] at hall
            exact ⟨[a], t, rfl, .set hall.1, ih.mpr ⟨Nat.succ.inj hlen, hall.2⟩⟩

theorem over_sets {q : α → Prop} {ps : List (α → Bool)} :
    Over q (sets ps) ↔ ∀ p ∈ ps, ∀ a, p a = true → q a := by
  induction ps with
  | nil => exact iff_of_true trivial (List.forall_mem_nil _)
  | cons p ps ih =>
      rw [List.forall_mem_cons]
      exact and_congr_right fun _ => ih

theorem over_alts {q : α → Prop} {rs : List (Ere α)} :
    Over q (alts rs) ↔ ∀ r ∈ rs, Over q r := by
  induction rs with
  | nil => exact iff_of_true trivial (List.forall_mem_nil _)
  | cons r rs ih =>
      rw [List.forall_mem_cons]
      exact and_congr_right fun _ => ih

theorem over_rep {q : α → Prop} {r : Ere α} (h : Over q r) (n : Nat) : Over q (rep r n) := by
  induction n with
  | zero => trivial
  | succ n ih => exact ⟨h, ih⟩

end Ere

end SushidaOs
