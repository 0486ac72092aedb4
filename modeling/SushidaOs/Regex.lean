import Mathlib.Data.List.Basic

/-!
# SushidaOs.Regex

Regular expressions as a backtracking matcher tries them, over any alphabet.

`Re.ends` lists where a match from a given place can end, the preferred end
first; `Re.findAll` finds the matches in a text from left to right, none inside
another.  The expressions are those without a repetition of groups.

`findAll_length_eq` compares two expressions that match in the same places and
differ only in how far a match goes.
-/

namespace SushidaOs

/-- A place in a text: what is before it, backwards, and what is after it. -/
structure Cursor (α : Type) where
  before : List α
  after : List α
  deriving DecidableEq, Repr

namespace Cursor

variable {α : Type}

/-- The place behind the next characters, if these are `word`. -/
def advance (c : Cursor α) (word : List α) : Cursor α where
  before := word.reverse ++ c.before
  after := c.after.drop word.length

end Cursor

inductive Re (α : Type) where
  | empty
  | char (p : α → Bool)
  /-- Up to `most` characters, as many or as few as possible. -/
  | run (greedy : Bool) (most : Option Nat) (p : α → Bool)
  /-- `\b`, for the characters of words. -/
  | edge (word : α → Bool)
  | seq (r s : Re α)
  | alt (r s : Re α)

namespace Re

variable {α : Type}

/-- The places behind the first characters with `p`, at most `most`, nearest
first. -/
def runEnds (p : α → Bool) (most : Option Nat) (before : List α) : List α → List (Cursor α)
  | [] => [⟨before, []⟩]
  | a :: after =>
      ⟨before, a :: after⟩ ::
        if p a && most != some 0 then runEnds p (most.map fun n => n - 1) (a :: before) after
        else []

/-- Where a match can end, the preferred end first. -/
def ends : Re α → Cursor α → List (Cursor α)
  | empty, c => [c]
  | char p, c =>
      match c.after with
      | [] => []
      | a :: after => if p a then [⟨a :: c.before, after⟩] else []
  | run greedy most p, c =>
      if greedy then (runEnds p most c.before c.after).reverse
      else runEnds p most c.before c.after
  | edge word, c => if c.before.head?.any word != c.after.head?.any word then [c] else []
  | seq r s, c => (ends r c).flatMap (ends s)
  | alt r s, c => ends r c ++ ends s c

/-- The text of a literal. -/
def word [BEq α] : List α → Re α
  | [] => empty
  | a :: rest => seq (char (· == a)) (word rest)

/-- `[...]+` -/
def plus (p : α → Bool) : Re α := seq (char p) (run true none p)

/-- The matches in a text, with where they start and end; `skip` characters are
still inside the last one.  No match is empty. -/
def findAll (r : Re α) (skip : Nat) (before : List α) : List α → List (Cursor α × Cursor α)
  | [] => []
  | a :: after =>
      if 0 < skip then findAll r (skip - 1) (a :: before) after
      else match (r.ends ⟨before, a :: after⟩).head? with
        | none => findAll r 0 (a :: before) after
        | some d =>
            (⟨before, a :: after⟩, d) ::
              findAll r (after.length - d.after.length) (a :: before) after

attribute [local grind =] runEnds ends findAll

/-! ## places -/

/-- `d` is behind `t`, which stands at `c`. -/
def Moves (c d : Cursor α) (t : List α) : Prop :=
  c.after = t ++ d.after ∧ d.before = t.reverse ++ c.before

theorem Moves.refl (c : Cursor α) : Moves c c [] := ⟨rfl, rfl⟩

theorem Moves.trans {c d e : Cursor α} {t u : List α} (h : Moves c d t) (h' : Moves d e u) :
    Moves c e (t ++ u) := by
  refine ⟨?_, ?_⟩
  · rw [h.1, h'.1, List.append_assoc]
  · rw [h'.2, h.2, List.reverse_append, List.append_assoc]

/-- A run moves forward. -/
theorem moves_of_mem_runEnds {p : α → Bool} {most : Option Nat} {before after : List α}
    {d : Cursor α} (h : d ∈ runEnds p most before after) : ∃ t, Moves ⟨before, after⟩ d t := by
  induction after generalizing most before with
  | nil =>
      rw [runEnds, List.mem_singleton] at h
      rw [h]
      exact ⟨[], .refl _⟩
  | cons a after ih =>
      rw [runEnds, List.mem_cons] at h
      rcases h with rfl | h
      · exact ⟨[], .refl _⟩
      · split at h
        · obtain ⟨t, hafter, hbefore⟩ := ih h
          simp only at hafter hbefore
          exact ⟨a :: t, by rw [hafter]; rfl, by rw [hbefore]; simp⟩
        · contradiction

/-- A match moves forward. -/
theorem moves_of_mem_ends {r : Re α} {c d : Cursor α} (h : d ∈ r.ends c) : ∃ t, Moves c d t := by
  induction r generalizing c d with
  | empty =>
      rw [ends, List.mem_singleton] at h
      rw [h]
      exact ⟨[], .refl _⟩
  | char p =>
      rw [ends] at h
      split at h
      · contradiction
      · next a after hafter =>
          split at h
          · rw [List.mem_singleton] at h
            exact ⟨[a], by rw [hafter, h]; rfl, by rw [h]; rfl⟩
          · contradiction
  | run greedy most p =>
      rw [ends] at h
      split at h
      · exact moves_of_mem_runEnds (List.mem_reverse.mp h)
      · exact moves_of_mem_runEnds h
  | edge word =>
      rw [ends] at h
      split at h
      · rw [List.mem_singleton] at h
        rw [h]
        exact ⟨[], .refl _⟩
      · contradiction
  | seq r s ihr ihs =>
      rw [ends, List.mem_flatMap] at h
      obtain ⟨e, he, hd⟩ := h
      obtain ⟨t, ht⟩ := ihr he
      obtain ⟨u, hu⟩ := ihs hd
      exact ⟨t ++ u, ht.trans hu⟩
  | alt r s ihr ihs =>
      rw [ends, List.mem_append] at h
      rcases h with h | h
      · exact ihr h
      · exact ihs h

/-! ## literals and runs -/

theorem advance_cons (before after word : List α) (a : α) :
    Cursor.advance ⟨a :: before, after⟩ word = Cursor.advance ⟨before, a :: after⟩ (a :: word) := by
  simp [Cursor.advance]

/-- A word matches where it stands. -/
theorem ends_word [BEq α] [LawfulBEq α] (w : List α) (c : Cursor α) :
    (word w).ends c = if w.isPrefixOf c.after then [c.advance w] else [] := by
  induction w generalizing c with
  | nil => simp [word, ends, Cursor.advance]
  | cons a w ih =>
      obtain ⟨before, after⟩ := c
      cases after with
      | nil => simp [word, ends]
      | cons b after =>
          by_cases hab : b = a
          · subst hab
            have hchar : (char (· == b)).ends ⟨before, b :: after⟩ = [⟨b :: before, after⟩] := by
              simp [ends]
            rw [word, ends, hchar, List.flatMap_singleton, ih, advance_cons, List.isPrefixOf,
              beq_self_eq_true, Bool.true_and]
          · have hba : ¬ a = b := fun h => hab h.symm
            simp [word, ends, hab, hba]

/-- The farthest place of a run. -/
theorem getLast?_runEnds (p : α → Bool) (before after : List α) :
    (runEnds p none before after).getLast? =
      some (Cursor.advance ⟨before, after⟩ (after.takeWhile p)) := by
  induction after generalizing before with
  | nil => rfl
  | cons a after ih =>
      rw [runEnds]
      cases ha : p a with
      | false => simp [ha, Cursor.advance]
      | true =>
          have hrest := ih (a :: before)
          rw [advance_cons] at hrest
          rw [List.takeWhile_cons_of_pos ha, ← hrest]
          simp [List.getLast?_cons, hrest]

/-- A greedy run takes all it can. -/
theorem head?_ends_greedy (p : α → Bool) (c : Cursor α) :
    ((run true none p).ends c).head? = some (c.advance (c.after.takeWhile p)) := by
  rw [ends, if_pos rfl, List.head?_reverse, getLast?_runEnds]

theorem advance_advance (c : Cursor α) (t u : List α) :
    (c.advance t).advance u = c.advance (t ++ u) := by
  simp [Cursor.advance, List.drop_drop]

theorem after_advance {c : Cursor α} {t u : List α} (h : c.after = t ++ u) :
    (c.advance t).after = u := by
  rw [Cursor.advance, h, List.drop_left]

theorem ends_char {p : α → Bool} {c : Cursor α} {a : α} {u : List α} (h : c.after = a :: u)
    (ha : p a = true) : (char p).ends c = [c.advance [a]] := by
  simp [ends, h, ha, Cursor.advance]

/-- A character that is not there does not match. -/
theorem ends_char_nil {p : α → Bool} {c : Cursor α} (h : c.after.head?.any p = false) :
    (char p).ends c = [] := by
  rw [ends]
  split
  · rfl
  · next a u hafter =>
      rw [hafter] at h
      rw [if_neg (Bool.not_eq_true _ ▸ h)]

theorem ends_seq_nil {r s : Re α} {c : Cursor α} (h : r.ends c = []) : (seq r s).ends c = [] := by
  rw [ends, h, List.flatMap_nil]

theorem ends_alt_nil {r s : Re α} {c : Cursor α} (h : r.ends c = []) :
    (alt r s).ends c = s.ends c := by
  rw [ends, h, List.nil_append]

/-- The preferred end of a sequence whose parts can both take theirs. -/
theorem head?_ends_seq {r s : Re α} {c d e : Cursor α} (hr : (r.ends c).head? = some d)
    (hs : (s.ends d).head? = some e) : ((seq r s).ends c).head? = some e := by
  obtain ⟨ds, hds⟩ := List.head?_eq_some_iff.mp hr
  obtain ⟨es, hes⟩ := List.head?_eq_some_iff.mp hs
  rw [ends, hds, List.flatMap_cons, hes, List.cons_append, List.head?_cons]

/-- All the characters up to one without `p`. -/
theorem head?_ends_plus {p : α → Bool} {c : Cursor α} {t u : List α} (h : c.after = t ++ u)
    (hne : t ≠ []) (hall : ∀ a ∈ t, p a = true) (hstop : u.head?.any p = false) :
    ((plus p).ends c).head? = some (c.advance t) := by
  obtain ⟨a, t, rfl⟩ := List.exists_cons_of_ne_nil hne
  have hafter : (c.advance [a]).after = t ++ u := after_advance h
  have hrun : (c.advance [a]).after.takeWhile p = t := by
    rw [hafter, List.takeWhile_append_of_pos fun b hb => hall b (List.mem_cons_of_mem a hb)]
    cases u with
    | nil => rw [List.takeWhile_nil, List.append_nil]
    | cons b u =>
        rw [List.takeWhile_cons_of_neg (Bool.not_eq_true _ ▸ hstop), List.append_nil]
  rw [plus, ends, ends_char h (hall a List.mem_cons_self), List.flatMap_singleton,
    head?_ends_greedy, hrun, advance_advance, List.singleton_append]

/-- The first alternative that matches is taken. -/
theorem head?_ends_alt {r s : Re α} {c d : Cursor α} (hr : (r.ends c).head? = some d) :
    ((alt r s).ends c).head? = some d := by
  obtain ⟨ds, hds⟩ := List.head?_eq_some_iff.mp hr
  rw [ends, hds, List.cons_append, List.head?_cons]

/-- The preferred end of a sequence: the first place for its second part decides. -/
theorem head?_flatMap_find {β γ : Type} {l : List β} {f : β → List γ} {q : β → Bool} {g : β → γ}
    (hyes : ∀ b ∈ l, q b = true → (f b).head? = some (g b))
    (hno : ∀ b ∈ l, q b = false → f b = []) : (l.flatMap f).head? = (l.find? q).map g := by
  induction l with
  | nil => rfl
  | cons b l ih =>
      have hrest := ih (fun x hx => hyes x (List.mem_cons_of_mem b hx))
        fun x hx => hno x (List.mem_cons_of_mem b hx)
      rw [List.flatMap_cons, List.find?_cons]
      cases hq : q b with
      | false => rw [hno b List.mem_cons_self hq, List.nil_append, hrest]
      | true =>
          obtain ⟨cs, hcs⟩ := List.head?_eq_some_iff.mp (hyes b List.mem_cons_self hq)
          rw [hcs]
          rfl

/-! ## the matches in a text -/

theorem findAll_skip (r : Re α) {k : Nat} (hk : 0 < k) (before : List α) (a : α)
    (after : List α) :
    findAll r k before (a :: after) = findAll r (k - 1) (a :: before) after := by
  rw [findAll, if_pos hk]

/-- Where nothing matches the search goes on behind the next character. -/
theorem findAll_none {r : Re α} {before after : List α} {a : α}
    (h : (r.ends ⟨before, a :: after⟩).head? = none) :
    findAll r 0 before (a :: after) = findAll r 0 (a :: before) after := by
  rw [findAll, if_neg (Nat.lt_irrefl 0), h]

/-- Behind a match the search goes on at its end. -/
theorem findAll_some {r : Re α} {before after : List α} {a : α} {d : Cursor α}
    (h : (r.ends ⟨before, a :: after⟩).head? = some d) :
    findAll r 0 before (a :: after) =
      (⟨before, a :: after⟩, d) ::
        findAll r (after.length - d.after.length) (a :: before) after := by
  rw [findAll, if_neg (Nat.lt_irrefl 0), h]

/-- A match that is found is one at its place. -/
theorem exists_of_mem_findAll {r : Re α} {skip : Nat} {before after : List α}
    {m : Cursor α × Cursor α} (h : m ∈ findAll r skip before after) :
    m.1.before.reverse ++ m.1.after = before.reverse ++ after ∧
      (r.ends m.1).head? = some m.2 := by
  induction after generalizing skip before with
  | nil => contradiction
  | cons a after ih =>
      have hrest : ∀ k, m ∈ findAll r k (a :: before) after →
          m.1.before.reverse ++ m.1.after = before.reverse ++ a :: after ∧
            (r.ends m.1).head? = some m.2 := by
        intro k hk
        obtain ⟨htext, hends⟩ := ih hk
        refine ⟨?_, hends⟩
        rw [htext, List.reverse_cons, List.append_assoc]
        rfl
      rcases Nat.eq_zero_or_pos skip with rfl | hskip
      · cases hends : (r.ends ⟨before, a :: after⟩).head? with
        | none =>
            rw [findAll_none hends] at h
            exact hrest _ h
        | some d =>
            rw [findAll_some hends, List.mem_cons] at h
            rcases h with rfl | h
            · exact ⟨rfl, hends⟩
            · exact hrest _ h
      · rw [findAll_skip r hskip] at h
        exact hrest _ h

/-- **Two expressions that match in the same places**: where the first ends before
the second, no match starts up to there. -/
theorem findAll_length_eq {r s : Re α} (quiet : α → Bool) {text : List α}
    (hstart : ∀ before a after, quiet a = true → (r.ends ⟨before, a :: after⟩).head? = none)
    (hnone : ∀ c : Cursor α, c.before.reverse ++ c.after = text →
      (r.ends c).head? = none → (s.ends c).head? = none)
    (hsome : ∀ c d : Cursor α, c.before.reverse ++ c.after = text → (r.ends c).head? = some d →
      ∃ e u t, (s.ends c).head? = some e ∧ u ≠ [] ∧ c.after = u ++ d.after ∧
        d.after = t ++ e.after ∧ ∀ a ∈ t, quiet a = true)
    {k k' : Nat} {before after : List α} (htext : before.reverse ++ after = text) (hle : k ≤ k')
    (hquiet : ∀ a ∈ (after.take k').drop k, quiet a = true) :
    (findAll r k before after).length = (findAll s k' before after).length := by
  induction after generalizing k k' before with
  | nil => rfl
  | cons a after ih =>
      have htext' : (a :: before).reverse ++ after = text := by
        rw [← htext, List.reverse_cons, List.append_assoc]
        rfl
      rcases Nat.eq_zero_or_pos k with rfl | hk
      · rcases Nat.eq_zero_or_pos k' with rfl | hk'
        · cases hr : (r.ends ⟨before, a :: after⟩).head? with
          | none =>
              rw [findAll_none hr, findAll_none (hnone _ htext hr)]
              exact ih htext' (Nat.le_refl 0) (by simp)
          | some d =>
              obtain ⟨e, u, t, hs, hne, hu, ht, hall⟩ := hsome _ d htext hr
              rw [findAll_some hr, findAll_some hs, List.length_cons, List.length_cons]
              obtain ⟨x, u, rfl⟩ := List.exists_cons_of_ne_nil hne
              have hafter : after = u ++ t ++ e.after := by
                rw [List.append_assoc, ← ht]
                exact (List.cons.inj hu).2
              have hd : after.length - d.after.length = u.length := by
                rw [hafter, ht]
                simp only [List.length_append]
                omega
              have he : after.length - e.after.length = u.length + t.length := by
                rw [hafter]
                simp only [List.length_append]
                omega
              rw [hd, he]
              congr 1
              refine ih htext' (Nat.le_add_right _ _) ?_
              have htake : after.take (u.length + t.length) = u ++ t := by
                rw [hafter, ← List.length_append, List.take_left]
              rw [htake, List.drop_left]
              exact hall
        · -- The second expression is still inside a match.
          have ha : quiet a = true := by
            apply hquiet
            rw [List.drop_zero, List.take_cons hk']
            exact List.mem_cons_self
          rw [findAll_none (hstart before a after ha), findAll_skip s hk']
          refine ih htext' (Nat.zero_le _) fun x hx => hquiet x ?_
          rw [List.drop_zero] at hx ⊢
          rw [List.take_cons hk']
          exact List.mem_cons_of_mem a hx
      · rw [findAll_skip r hk, findAll_skip s (by omega)]
        refine ih htext' (by omega) fun x hx => hquiet x ?_
        rw [List.take_cons (by omega : 0 < k'), List.drop_cons hk]
        exact hx

end Re

end SushidaOs
