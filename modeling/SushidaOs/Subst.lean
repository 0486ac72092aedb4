import SushidaOs.Ere

/-!
# SushidaOs.Subst

The substitution of stream editors, over any alphabet: the matches of a text are
replaced from left to right, each as long as possible and none inside another.

* `subst_stopper`: a character that no match has divides the work;
* `clean_subst`, `clean_subst_self`: no match is left where the replacements begin
  and end with such characters;
* `Behind.subst_const_or_keep`: where a rule keeps a head and hides what follows a
  mark, a beginning of the text decides whether the rest is hidden.
-/

namespace SushidaOs

namespace Ere

variable {α : Type}

/-! ## substitution -/

/-- `s/pattern/replacement/g`.  Nothing is replaced where the longest match is empty. -/
structure Subst (α : Type) where
  pattern : Ere α
  replace : List α → List α

namespace Subst

variable (s : Subst α)

/-- The substitution when `skip` more characters are inside the last match. -/
def run : Nat → List α → List α
  | _, [] => []
  | skip + 1, _ :: text => run skip text
  | 0, a :: text =>
      match longest s.pattern (a :: text) with
      | some (n + 1) => s.replace ((a :: text).take (n + 1)) ++ run n text
      | _ => a :: run 0 text

def subst (text : List α) : List α := s.run 0 text

/-- Skipping is going on behind the match. -/
theorem run_eq (skip : Nat) (text : List α) : s.run skip text = s.subst (text.drop skip) := by
  induction skip generalizing text with
  | zero => rfl
  | succ skip ih =>
      cases text with
      | nil => simp [run, subst]
      | cons a text => rw [run, ih, List.drop_succ_cons]

@[simp] theorem subst_nil : s.subst [] = [] := rfl

/-- A match is replaced. -/
theorem subst_match {text : List α} {n : Nat} (hn : 0 < n)
    (h : longest s.pattern text = some n) :
    s.subst text = s.replace (text.take n) ++ s.subst (text.drop n) := by
  obtain ⟨k, rfl⟩ : ∃ k, n = k + 1 := ⟨n - 1, by omega⟩
  cases text with
  | nil => exact absurd (longest_eq_some_iff.mp h).1 (by simp)
  | cons a text =>
      have hrun : s.run 0 (a :: text) = s.replace ((a :: text).take (k + 1)) ++ s.run k text := by
        rw [run, h]
      rw [subst, hrun, run_eq, List.drop_succ_cons]

/-- Elsewhere the text stays. -/
theorem subst_quiet {a : α} {text : List α}
    (h : ∀ n, longest s.pattern (a :: text) ≠ some (n + 1)) :
    s.subst (a :: text) = a :: s.subst text := by
  rw [subst, run]
  split
  · next n hn => exact absurd hn (h n)
  · rfl

/-- Where nothing matches a character stays. -/
theorem subst_none {a : α} {text : List α} (h : longest s.pattern (a :: text) = Option.none) :
    s.subst (a :: text) = a :: s.subst text :=
  s.subst_quiet fun n => by rw [h]; exact Option.some_ne_none _ ∘ Eq.symm

/-- The cases of a substitution, from its end. -/
theorem subst_induction {motive : List α → Prop} (nil : motive [])
    (quiet : ∀ a text, (∀ n, longest s.pattern (a :: text) ≠ some (n + 1)) → motive text →
      motive (a :: text))
    (found : ∀ text n, 0 < n → longest s.pattern text = some n → motive (text.drop n) →
      motive text) (text : List α) : motive text := by
  induction hlen : text.length using Nat.strong_induction_on generalizing text with
  | _ length ih =>
      cases text with
      | nil => exact nil
      | cons a text =>
          rw [List.length_cons] at hlen
          by_cases h : ∃ n, longest s.pattern (a :: text) = some (n + 1)
          · obtain ⟨n, hn⟩ := h
            refine found _ (n + 1) (Nat.succ_pos n) hn (ih _ ?_ _ rfl)
            rw [List.drop_succ_cons, List.length_drop]
            omega
          · exact quiet a text (fun n hn => h ⟨n, hn⟩) (ih _ (by omega) _ rfl)

/-- What holds of the text and of every replacement holds of the result. -/
theorem forall_mem_subst {q : α → Prop}
    (hreplace : ∀ m, Matches s.pattern m → (∀ a ∈ m, q a) → ∀ a ∈ s.replace m, q a)
    {text : List α} (h : ∀ a ∈ text, q a) : ∀ a ∈ s.subst text, q a := by
  induction text using s.subst_induction with
  | nil => exact h
  | quiet a text hquiet ih =>
      rw [s.subst_quiet hquiet]
      rw [List.forall_mem_cons] at h ⊢
      exact ⟨h.1, ih h.2⟩
  | found text n hn hlong ih =>
      rw [s.subst_match hn hlong, List.forall_mem_append]
      refine ⟨hreplace _ (longest_eq_some_iff.mp hlong).2.1 fun a ha => ?_,
        ih fun a ha => h a (List.mem_of_mem_drop ha)⟩
      exact h a (List.mem_of_mem_take ha)

end Subst

/-! ## stoppers -/

theorem prefix_stopper {m u t : List α} {x : α} (hm : x ∉ m) :
    m <+: u ++ x :: t ↔ m <+: u := by
  refine ⟨fun h => ?_, fun h => h.trans (List.prefix_append u _)⟩
  induction u generalizing m with
  | nil =>
      cases m with
      | nil => exact List.prefix_rfl
      | cons a m =>
          obtain ⟨rfl, -⟩ := List.cons_prefix_cons.mp h
          exact absurd List.mem_cons_self hm
  | cons b u ih =>
      cases m with
      | nil => exact List.nil_prefix
      | cons a m =>
          obtain ⟨rfl, htail⟩ := List.cons_prefix_cons.mp h
          exact List.cons_prefix_cons.mpr
            ⟨rfl, ih (fun hx => hm (List.mem_cons_of_mem a hx)) htail⟩

/-- A part without `x` is on one side of it. -/
theorem infix_stopper {m u t : List α} {x : α} (hm : x ∉ m) (h : m <:+: u ++ x :: t) :
    m <:+: u ∨ m <:+: t := by
  induction u with
  | nil =>
      rcases List.infix_cons_iff.mp h with h | h
      · exact .inl ((prefix_stopper (u := []) hm).mp h).isInfix
      · exact .inr h
  | cons b u ih =>
      rcases List.infix_cons_iff.mp h with h | h
      · exact .inl ((prefix_stopper (u := b :: u) hm).mp h).isInfix
      · exact (ih h).imp_left fun h => List.infix_cons_iff.mpr (.inr h)

/-- A match does not go past a character that no match has. -/
theorem longest_stopper {r : Ere α} {x : α} (hx : ∀ m, Matches r m → x ∉ m) (u t : List α) :
    longest r (u ++ x :: t) = longest r u := by
  cases hu : longest r u with
  | none =>
      rw [longest_eq_none_iff] at hu ⊢
      exact fun m hm h => hu m ((prefix_stopper (hx m h)).mp hm) h
  | some n =>
      rw [longest_eq_some_iff] at hu ⊢
      obtain ⟨hle, hmatch, hmax⟩ := hu
      refine ⟨by rw [List.length_append]; omega, ?_, fun m hm h => ?_⟩
      · rwa [List.take_append_of_le_length hle]
      · exact hmax m ((prefix_stopper (hx m h)).mp hm) h

namespace Subst

variable {s : Subst α}

/-- What is in no match divides the substitution. -/
theorem subst_stopper {x : α} (hx : ∀ m, Matches s.pattern m → x ∉ m) (u t : List α) :
    s.subst (u ++ x :: t) = s.subst u ++ x :: s.subst t := by
  induction u using s.subst_induction with
  | nil =>
      refine s.subst_quiet fun n hn => ?_
      obtain ⟨-, hmatch, -⟩ := longest_eq_some_iff.mp hn
      exact hx _ hmatch (by simp)
  | quiet a u hquiet ih =>
      have hlong := longest_stopper hx (a :: u) t
      rw [List.cons_append] at hlong ⊢
      rw [s.subst_quiet (fun n hn => hquiet n (hlong ▸ hn)), ih, s.subst_quiet hquiet,
        List.cons_append]
  | found u n hn hlong ih =>
      have hle := (longest_eq_some_iff.mp hlong).1
      rw [s.subst_match hn ((longest_stopper hx u t).trans hlong), s.subst_match hn hlong,
        List.take_append_of_le_length hle, List.drop_append_of_le_length hle, ih,
        List.append_assoc]

/-- A character that ends no match stays behind the rest. -/
theorem subst_concat {x : α} {u : List α} (hx : ∀ m, m <:+ u → ¬ Matches s.pattern (m ++ [x])) :
    s.subst (u ++ [x]) = s.subst u ++ [x] := by
  have hlong : ∀ v, v <:+ u → longest s.pattern (v ++ [x]) = longest s.pattern v := by
    intro v hv
    have hfront : ∀ m, m <+: v ++ [x] → Matches s.pattern m → m <+: v := by
      intro m hm h
      rcases List.prefix_concat_iff.mp hm with rfl | hm
      · exact absurd h (hx v hv)
      · exact hm
    cases hlong : longest s.pattern v with
    | none =>
        rw [longest_eq_none_iff] at hlong ⊢
        exact fun m hm h => hlong m (hfront m hm h) h
    | some n =>
        rw [longest_eq_some_iff] at hlong ⊢
        obtain ⟨hle, hmatch, hmax⟩ := hlong
        refine ⟨by rw [List.length_append]; omega, ?_, fun m hm h => hmax m (hfront m hm h) h⟩
        rwa [List.take_append_of_le_length hle]
  induction u using s.subst_induction with
  | nil =>
      refine s.subst_quiet fun n hn => ?_
      have hself := hlong [] List.suffix_rfl
      rw [List.nil_append] at hself
      rw [hself] at hn
      exact absurd (longest_eq_some_iff.mp hn).1 (by simp)
  | quiet a u hquiet ih =>
      have hself := hlong (a :: u) List.suffix_rfl
      have htail : u <:+ a :: u := List.suffix_cons a u
      rw [List.cons_append] at hself ⊢
      rw [s.subst_quiet (fun n hn => hquiet n (hself ▸ hn)), s.subst_quiet hquiet,
        ih (fun m hm => hx m (hm.trans htail)) fun v hv => hlong v (hv.trans htail),
        List.cons_append]
  | found u n hn hfound ih =>
      have hle := (longest_eq_some_iff.mp hfound).1
      have htail : u.drop n <:+ u := List.drop_suffix n u
      rw [s.subst_match hn ((hlong u List.suffix_rfl).trans hfound), s.subst_match hn hfound,
        List.take_append_of_le_length hle, List.drop_append_of_le_length hle,
        ih (fun m hm => hx m (hm.trans htail)) fun v hv => hlong v (hv.trans htail),
        List.append_assoc]

end Subst

/-! ## what a substitution leaves -/

/-- No part of the text is a match. -/
def Clean (r : Ere α) (text : List α) : Prop := ∀ m, m <:+: text → ¬ Matches r m

/-- A part of a clean text is clean. -/
theorem Clean.part {r : Ere α} {t u : List α} (h : Clean r t) (hu : u <:+: t) : Clean r u :=
  fun m hm => h m (hm.trans hu)

/-- A text is clean if no match begins in it. -/
theorem clean_of_tails {r : Ere α} {text : List α}
    (h : ∀ t ∈ text.tails, longest r t = Option.none) : Clean r text := by
  intro m hm
  obtain ⟨t, hmt, ht⟩ := List.infix_iff_prefix_suffix.mp hm
  exact longest_eq_none_iff.mp (h t ((List.mem_tails t text).mpr ht)) m hmt

/-- A replacement that is a beginning of the match and then `x … z` with no match between. -/
def Fenced (r : Ere α) (x z : α) (m replacement : List α) : Prop :=
  ∃ g y, replacement = g ++ x :: (y ++ [z]) ∧ g <+: m ∧ Clean r y

namespace Subst

variable {s : Subst α} {r : Ere α} {x z : α}

/-- Without `x`, the result begins as the text does. -/
theorem prefix_of_prefix_subst (hreplace : ∀ m, Matches s.pattern m → Fenced r x z m (s.replace m))
    {m text : List α} (hx : x ∉ m) (h : m <+: s.subst text) : m <+: text := by
  induction text using s.subst_induction generalizing m with
  | nil => exact h
  | quiet a text hquiet ih =>
      rw [s.subst_quiet hquiet] at h
      cases m with
      | nil => exact List.nil_prefix
      | cons b m =>
          obtain ⟨rfl, htail⟩ := List.cons_prefix_cons.mp h
          exact List.cons_prefix_cons.mpr
            ⟨rfl, ih (fun hm => hx (List.mem_cons_of_mem b hm)) htail⟩
  | found text n hn hfound _ =>
      obtain ⟨g, y, hfence, hg, -⟩ := hreplace _ (longest_eq_some_iff.mp hfound).2.1
      rw [s.subst_match hn hfound, hfence, List.append_assoc, List.cons_append] at h
      exact (((prefix_stopper hx).mp h).trans hg).trans (List.take_prefix n text)

/-- Where a part of the result without `x` and `z` comes from, behind a match. -/
theorem infix_fenced {m n g y rest : List α} (hx : x ∉ m) (hz : z ∉ m)
    (hn : n = g ++ x :: (y ++ [z])) (h : m <:+: n ++ rest) : m <:+: g ∨ m <:+: y ∨ m <:+: rest := by
  subst hn
  rw [List.append_assoc, List.cons_append, List.append_assoc, List.singleton_append] at h
  exact (infix_stopper hx h).imp_right (infix_stopper hz)

/-- A text without a match of `r` stays without one. -/
theorem clean_subst (hx : ∀ m, Matches r m → x ∉ m) (hz : ∀ m, Matches r m → z ∉ m)
    (hreplace : ∀ m, Matches s.pattern m → Fenced r x z m (s.replace m)) {text : List α}
    (h : Clean r text) : Clean r (s.subst text) := by
  induction text using s.subst_induction with
  | nil => exact h
  | quiet a text hquiet ih =>
      intro m hm hmatch
      rw [s.subst_quiet hquiet] at hm
      rcases List.infix_cons_iff.mp hm with hm | hm
      · rw [← s.subst_quiet hquiet] at hm
        exact h m (prefix_of_prefix_subst hreplace (hx m hmatch) hm).isInfix hmatch
      · exact ih (h.part (List.suffix_cons a text).isInfix) m hm hmatch
  | found text n hn hfound ih =>
      intro m hm hmatch
      obtain ⟨g, y, hfence, hg, hy⟩ := hreplace _ (longest_eq_some_iff.mp hfound).2.1
      rw [s.subst_match hn hfound] at hm
      rcases infix_fenced (hx m hmatch) (hz m hmatch) hfence hm with hm | hm | hm
      · exact h m (hm.trans ((hg.trans (List.take_prefix n text)).isInfix)) hmatch
      · exact hy m hm hmatch
      · exact ih (h.part (List.drop_suffix n text).isInfix) m hm hmatch

/-- No match of the pattern is left where the replacements keep nothing of it. -/
theorem clean_subst_self (hnull : nullable s.pattern = false)
    (hx : ∀ m, Matches s.pattern m → x ∉ m) (hz : ∀ m, Matches s.pattern m → z ∉ m)
    (hreplace : ∀ m, Matches s.pattern m → Fenced s.pattern x z [] (s.replace m))
    (text : List α) : Clean s.pattern (s.subst text) := by
  have hnil : ¬ Matches s.pattern [] := fun h => by
    rw [(nullable_iff s.pattern).mpr h] at hnull
    cases hnull
  have hfenced : ∀ m, Matches s.pattern m → Fenced s.pattern x z m (s.replace m) := by
    intro m hm
    obtain ⟨g, y, hfence, hg, hy⟩ := hreplace m hm
    exact ⟨g, y, hfence, hg.trans List.nil_prefix, hy⟩
  induction text using s.subst_induction with
  | nil =>
      intro m hm hmatch
      obtain rfl := List.eq_nil_of_infix_nil hm
      exact hnil hmatch
  | quiet a text hquiet ih =>
      intro m hm hmatch
      rw [s.subst_quiet hquiet] at hm
      rcases List.infix_cons_iff.mp hm with hm | hm
      · rw [← s.subst_quiet hquiet] at hm
        have hfront := prefix_of_prefix_subst hfenced (hx m hmatch) hm
        obtain ⟨n, hlong, hle⟩ := (longest_spec s.pattern (a :: text)).2 m hfront hmatch
        cases n with
        | zero => exact hnil (List.length_eq_zero_iff.mp (Nat.le_zero.mp hle) ▸ hmatch)
        | succ n => exact hquiet n hlong
      · exact ih m hm hmatch
  | found text n hn hfound ih =>
      intro m hm hmatch
      obtain ⟨g, y, hfence, hg, hy⟩ := hreplace _ (longest_eq_some_iff.mp hfound).2.1
      rw [s.subst_match hn hfound] at hm
      rcases infix_fenced (hx m hmatch) (hz m hmatch) hfence hm with hm | hm | hm
      · rw [List.prefix_nil.mp hg] at hm
        exact hnil (List.eq_nil_of_infix_nil hm ▸ hmatch)
      · exact hy m hm hmatch
      · exact ih m hm hmatch

end Subst

/-! ## hiding what follows a mark -/

/-- `s/(head)mark value*/\1blank/g`, with one item of the value at least or without. -/
structure Behind (α : Type) where
  head : Ere α
  mark : α → Bool
  value : α → Bool
  least : Bool
  blank : List α
  head_unmarked : Over (fun a => mark a = false) head
  blank_value : ∀ a ∈ blank, value a = true

namespace Behind

variable (b : Behind α)

def subst : Subst α where
  pattern := .seq b.head (.seq (.set b.mark)
    (if b.least then plus (.set b.value) else .star (.set b.value)))
  replace m := m.takeWhile (fun a => !b.mark a) ++ b.blank

/-- A head and its mark stand in the text. -/
def Hit (t : List α) : Prop :=
  ∃ u w x q, t = u ++ (w ++ x :: q) ∧ Matches b.head w ∧ b.mark x = true

variable {b}

/-- A match: the head, the mark and the value. -/
theorem matches_subst {m : List α} : Matches b.subst.pattern m ↔
    ∃ w x q, m = w ++ x :: q ∧ Matches b.head w ∧ b.mark x = true ∧
      (b.least = true → q ≠ []) ∧ ∀ a ∈ q, b.value a = true := by
  have htail : ∀ q, Matches (if b.least then plus (.set b.value) else .star (.set b.value)) q ↔
      (b.least = true → q ≠ []) ∧ ∀ a ∈ q, b.value a = true := by
    intro q
    cases b.least with
    | true => simpa using matches_plus_set
    | false => simpa using matches_star_set
  rw [subst, matches_seq]
  constructor
  · rintro ⟨w, t, rfl, hw, ht⟩
    obtain ⟨u, q, rfl, hu, hq⟩ := matches_seq.mp ht
    obtain ⟨x, hx, rfl⟩ := matches_set.mp hu
    exact ⟨w, x, q, rfl, hw, hx, (htail q).mp hq⟩
  · rintro ⟨w, x, q, rfl, hw, hx, hq⟩
    exact ⟨w, x :: q, rfl, hw, matches_seq.mpr ⟨[x], q, rfl, .set hx, (htail q).mpr hq⟩⟩

theorem not_mark_of_head {w : List α} {x : α} (hw : Matches b.head w) (hx : b.mark x = true) :
    x ∉ w := fun hmem => by
  rw [b.head_unmarked.forall_mem hw x hmem] at hx
  cases hx

/-- The head stays and the rest becomes blank. -/
theorem replace_subst {w q : List α} {x : α} (hw : Matches b.head w) (hx : b.mark x = true) :
    b.subst.replace (w ++ x :: q) = w ++ b.blank := by
  have hmark : ∀ a ∈ w, (!b.mark a) = true :=
    fun a ha => by rw [b.head_unmarked.forall_mem hw a ha]; rfl
  have hkeep : (w ++ x :: q).takeWhile (fun a => !b.mark a) = w := by
    rw [List.takeWhile_append_of_pos hmark, List.takeWhile_cons_of_neg (by simp [hx]),
      List.append_nil]
  exact congrArg (· ++ b.blank) hkeep

/-- A match found in front of a text. -/
theorem subst_head {t : List α} {n : Nat} (hn : 0 < n) (h : longest b.subst.pattern t = some n) :
    ∃ w x q, t.take n = w ++ x :: q ∧ Matches b.head w ∧ b.mark x = true ∧
      (b.least = true → q ≠ []) ∧ b.subst.subst t = w ++ b.blank ++ b.subst.subst (t.drop n) := by
  obtain ⟨w, x, q, htake, hw, hx, hleast, -⟩ := matches_subst.mp (longest_eq_some_iff.mp h).2.1
  refine ⟨w, x, q, htake, hw, hx, hleast, ?_⟩
  rw [b.subst.subst_match hn h, htake, replace_subst hw hx]

/-- A whole text that is a match. -/
theorem subst_whole {w q : List α} {x : α} (hw : Matches b.head w) (hx : b.mark x = true)
    (hleast : b.least = true → q ≠ []) (hq : ∀ a ∈ q, b.value a = true) :
    b.subst.subst (w ++ x :: q) = w ++ b.blank := by
  have hlong : longest b.subst.pattern (w ++ x :: q) = some (w ++ x :: q).length := by
    refine longest_eq_some_iff.mpr ⟨Nat.le_refl _, ?_, fun m hm _ => hm.length_le⟩
    rw [List.take_length]
    exact matches_subst.mpr ⟨w, x, q, rfl, hw, hx, hleast, hq⟩
  have hpos : 0 < (w ++ x :: q).length := List.length_pos_of_ne_nil (by simp)
  rw [b.subst.subst_match hpos hlong, List.take_length, List.drop_length,
    replace_subst hw hx, Subst.subst_nil, List.append_nil]

/-- The mark of a match that begins with `t ++ v` is in `t` or behind it. -/
theorem mark_in_or_behind {t v w q : List α} {x : α} (h : w ++ x :: q <+: t ++ v) :
    (∃ k, t = w ++ x :: k) ∨ t <+: w := by
  have hw : w ++ [x] <+: t ++ v := by
    refine List.IsPrefix.trans ⟨q, ?_⟩ h
    rw [List.append_assoc, List.singleton_append]
  rcases List.prefix_or_prefix_of_prefix hw (List.prefix_append t v) with ⟨k, hk⟩ | ht
  · refine .inl ⟨k, ?_⟩
    rw [← hk, List.append_assoc, List.singleton_append]
  · rcases List.prefix_concat_iff.mp ht with rfl | ht
    · exact .inl ⟨[], rfl⟩
    · exact .inr ht

/-- The mark of a match in front is a hit, or the head goes on behind `t`. -/
theorem hit_or_behind {t v : List α} {n : Nat} {w q : List α} {x : α}
    (htake : (t ++ v).take n = w ++ x :: q) : (∃ k, t = w ++ x :: k) ∨ t <+: w := by
  have hfront : w ++ x :: q <+: t ++ v := htake ▸ List.take_prefix n (t ++ v)
  exact mark_in_or_behind hfront

/-- Everything behind a hit is hidden. -/
theorem subst_hit {t : List α} (hvalue : ∀ a ∈ t, b.value a = true) (h : b.Hit t) :
    ∃ c, ∀ v, (∀ a ∈ v, b.value a = true) → (b.least = true → v ≠ []) →
      b.subst.subst (t ++ v) = c := by
  induction t with
  | nil =>
      obtain ⟨u, w, x, q, ht, -⟩ := h
      simp at ht
  | cons a t ih =>
      by_cases hfront : ∃ w x q, a :: t = w ++ x :: q ∧ Matches b.head w ∧ b.mark x = true
      · obtain ⟨w, x, q, ht, hw, hx⟩ := hfront
        refine ⟨w ++ b.blank, fun v hv hleast => ?_⟩
        rw [ht, List.append_assoc, List.cons_append]
        refine subst_whole hw hx (fun hl hnil => hleast hl (List.append_eq_nil_iff.mp hnil).2) ?_
        refine List.forall_mem_append.mpr ⟨fun c hc => hvalue c ?_, hv⟩
        rw [ht]
        exact List.mem_append_right w (List.mem_cons_of_mem x hc)
      · -- The hit is further on, so its mark is in `t` and no head in front goes past it.
        have htail : b.Hit t := by
          obtain ⟨u, w, x, q, ht, hw, hx⟩ := h
          cases u with
          | nil => exact absurd ⟨w, x, q, ht, hw, hx⟩ hfront
          | cons c u => exact ⟨u, w, x, q, (List.cons.inj ht).2, hw, hx⟩
        rw [List.forall_mem_cons] at hvalue
        obtain ⟨c, hc⟩ := ih hvalue.2 htail
        refine ⟨a :: c, fun v hv hleast => ?_⟩
        rw [List.cons_append, b.subst.subst_quiet, hc v hv hleast]
        intro n hn
        obtain ⟨w, x, q, htake, hw, hx, -⟩ := subst_head (Nat.succ_pos n) hn
        rcases hit_or_behind (t := a :: t) htake with ⟨k, hk⟩ | hbehind
        · exact hfront ⟨w, x, k, hk, hw, hx⟩
        · obtain ⟨u, w', y, q', ht, -, hy⟩ := htail
          refine not_mark_of_head hw hy (hbehind.mem ?_)
          rw [ht]
          simp

/-- Without a hit the text stays, whatever comes behind it. -/
theorem subst_keep {t : List α} (h : ¬ b.Hit t) (v : List α) :
    ∃ v', b.subst.subst (t ++ v) = t ++ v' := by
  induction t with
  | nil => exact ⟨_, rfl⟩
  | cons a t ih =>
      have htail : ¬ b.Hit t := by
        rintro ⟨u, w, x, q, rfl, hrest⟩
        exact h ⟨a :: u, w, x, q, rfl, hrest⟩
      by_cases hquiet : ∀ n, longest b.subst.pattern (a :: t ++ v) ≠ some (n + 1)
      · obtain ⟨v', hv'⟩ := ih htail
        refine ⟨v', ?_⟩
        rw [List.cons_append] at hquiet ⊢
        rw [b.subst.subst_quiet hquiet, hv', List.cons_append]
      · simp only [not_forall, not_not] at hquiet
        obtain ⟨n, hn⟩ := hquiet
        obtain ⟨w, x, q, htake, hw, hx, -, hsubst⟩ := subst_head (Nat.succ_pos n) hn
        rcases hit_or_behind htake with ⟨k, hk⟩ | ⟨v₀, rfl⟩
        · exact absurd ⟨[], w, x, k, hk, hw, hx⟩ h
        · refine ⟨v₀ ++ b.blank ++ b.subst.subst ((a :: t ++ v).drop (n + 1)), ?_⟩
          rw [hsubst, List.append_assoc, List.append_assoc, List.append_assoc]

theorem Hit.of_concat {t : List α} {x : α} (hx : b.mark x = false) (h : b.Hit (t ++ [x])) :
    b.Hit t := by
  obtain ⟨u, w, y, q, ht, hw, hy⟩ := h
  rcases List.eq_nil_or_concat q with rfl | ⟨q, z, rfl⟩
  · rw [← List.append_assoc] at ht
    obtain ⟨-, hxy⟩ := List.append_inj' ht rfl
    rw [List.singleton_inj.mp hxy, hy] at hx
    cases hx
  · rw [List.concat_eq_append, ← List.cons_append, ← List.append_assoc, ← List.append_assoc] at ht
    exact ⟨u, w, y, q, (List.append_inj' ht rfl).1.trans (List.append_assoc _ _ _), hw, hy⟩

theorem forall_mem_subst {q : α → Prop} (hblank : ∀ a ∈ b.blank, q a) {t : List α}
    (h : ∀ a ∈ t, q a) : ∀ a ∈ b.subst.subst t, q a := by
  refine b.subst.forall_mem_subst (fun m hm hq => ?_) h
  obtain ⟨w, x, k, rfl, hw, hx, -⟩ := matches_subst.mp hm
  rw [replace_subst hw hx]
  exact List.forall_mem_append.mpr ⟨(List.forall_mem_append.mp hq).1, hblank⟩

/-- A beginning of the text decides: the rest is hidden, or the beginning stays. -/
theorem subst_const_or_keep {t : List α} {x : α} (ht : ∀ a ∈ t, b.value a = true)
    (hx : b.value x = true) (hmark : b.mark x = false ∨ b.least = false) :
    (∃ c, ∀ v, (∀ a ∈ v, b.value a = true) → b.subst.subst (t ++ [x] ++ v) = c) ∨
      ∀ v, (∀ a ∈ v, b.value a = true) →
        ∃ v', (∀ a ∈ v', b.value a = true) ∧ b.subst.subst (t ++ [x] ++ v) = t ++ [x] ++ v' := by
  have hall : ∀ a ∈ t ++ [x], b.value a = true :=
    List.forall_mem_append.mpr ⟨ht, List.forall_mem_singleton.mpr hx⟩
  by_cases h : b.Hit (t ++ [x])
  · refine .inl ?_
    rcases hmark with hmark | hleast
    · obtain ⟨c, hc⟩ := subst_hit ht (h.of_concat hmark)
      refine ⟨c, fun v hv => ?_⟩
      rw [List.append_assoc]
      exact hc _ (List.forall_mem_cons.mpr ⟨hx, hv⟩) fun _ => List.cons_ne_nil x v
    · obtain ⟨c, hc⟩ := subst_hit hall h
      exact ⟨c, fun v hv => hc v hv fun hl => absurd (hleast ▸ hl) Bool.false_ne_true⟩
  · refine .inr fun v hv => ?_
    obtain ⟨v', hv'⟩ := subst_keep h v
    have hout : ∀ a ∈ t ++ [x] ++ v', b.value a = true := by
      rw [← hv']
      exact forall_mem_subst b.blank_value (List.forall_mem_append.mpr ⟨hall, hv⟩)
    exact ⟨v', (List.forall_mem_append.mp hout).2, hv'⟩

end Behind

end Ere

end SushidaOs
