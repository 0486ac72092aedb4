import Mathlib.Algebra.Order.BigOperators.Group.List
import Mathlib.Algebra.Order.Ring.Int
import Mathlib.Data.List.DropRight

/-!
# SushidaOs.Paths

Paths as text: components between separators, over any alphabet.

`PathChars.normalise` resolves a path by its text alone, without a file system:
empty components and `.` stay where they are, `..` goes up and the root is above
itself.  A path without `..` only goes down:

* `below_append`: what is put behind a path and a separator stays below it;
* `staysInside_of_not_mem`: such a path never leaves the place it starts from;
* `below_dirname`: the directory of a path stays below it too, also when the path
  itself ends in `..`.
-/

namespace SushidaOs

/-- The characters that have a meaning in paths. -/
structure PathChars (α : Type) where
  slash : α
  dot : α

namespace PathChars

variable {α : Type} [DecidableEq α] (P : PathChars α)

def components (path : List α) : List (List α) := path.splitOn P.slash

/-- `..` -/
def parent : List α := [P.dot, P.dot]

/-- An empty component or `.`. -/
def isHere (c : List α) : Bool := c == [] || c == [P.dot]

/-- The place that a component leads to. -/
def step (place : List (List α)) (c : List α) : List (List α) :=
  if P.isHere c then place
  else if c = P.parent then place.dropLast
  else place ++ [c]

/-- The place of an absolute path. -/
def normalise (path : List α) : List (List α) := (P.components path).foldl P.step []

/-- The absolute path of a place. -/
def print (place : List (List α)) : List α := P.slash :: [P.slash].intercalate place

/-- An absolute path that normalisation leaves as it is. -/
def Normalised (path : List α) : Prop := P.print (P.normalise path) = path

/-- The path is `root` or below it. -/
def Below (root path : List α) : Prop :=
  path.head? = some P.slash ∧ P.normalise root <+: P.normalise path

/-- How far a component goes down. -/
def weight (c : List α) : Int := if P.isHere c then 0 else if c = P.parent then -1 else 1

/-- No front part of the path is above the place where the path starts. -/
def StaysInside (path : List α) : Prop :=
  ∀ front, front <+: P.components path → 0 ≤ (front.map P.weight).sum

/-- `dirname`. -/
def dirname (path : List α) : List α :=
  let front := ((path.rdropWhile (· == P.slash)).rdropWhile (· != P.slash)).rdropWhile
    (· == P.slash)
  if front ≠ [] then front else if path.head? = some P.slash then [P.slash] else [P.dot]

instance decidableNormalised (path : List α) : Decidable (P.Normalised path) :=
  inferInstanceAs (Decidable (_ = _))

/-! ## components -/

theorem components_append (front back : List α) :
    P.components (front ++ P.slash :: back) = P.components front ++ P.components back := by
  rw [components, List.splitOn_append_cons_self, components, components]

theorem slash_not_mem {path c : List α} (h : c ∈ P.components path) : P.slash ∉ c := by
  induction path generalizing c with
  | nil =>
      rw [components, List.splitOn_nil, List.mem_singleton] at h
      simp [h]
  | cons a path ih =>
      rw [components, List.splitOn_cons_eq_if_modifyHead] at h
      split at h
      · rcases List.mem_cons.mp h with rfl | h
        · simp
        · exact ih h
      · next hne =>
          obtain ⟨d, ds, hds⟩ := List.exists_cons_of_ne_nil (List.splitOn_ne_nil P.slash path)
          rw [hds, List.modifyHead_cons] at h
          rw [components, hds] at ih
          rcases List.mem_cons.mp h with rfl | h
          · have hd := ih List.mem_cons_self
            simp only [List.mem_cons, not_or]
            exact ⟨fun heq => hne (by simp [heq]), hd⟩
          · exact ih (List.mem_cons_of_mem d h)

omit [DecidableEq α] in
theorem intercalate_append {front back : List (List α)} (hfront : front ≠ []) (hback : back ≠ []) :
    [P.slash].intercalate (front ++ back) =
      [P.slash].intercalate front ++ P.slash :: [P.slash].intercalate back := by
  induction front with
  | nil => contradiction
  | cons c front ih =>
      by_cases hnil : front = []
      · rw [hnil, List.singleton_append, List.intercalate_cons_of_ne_nil hback,
          List.intercalate_singleton]
        simp only [List.append_assoc, List.cons_append, List.nil_append]
      · have happ : front ++ back ≠ [] := fun h => hnil (List.append_eq_nil_iff.mp h).1
        rw [List.cons_append, List.intercalate_cons_of_ne_nil happ,
          List.intercalate_cons_of_ne_nil hnil, ih hnil]
        simp only [List.append_assoc, List.cons_append]

/-- Components on the way to the last one are text in front of a separator. -/
theorem prefix_components_iff {front : List (List α)} (hfront : front ≠ []) {path : List α} :
    front <+: P.components path ∧ front ≠ P.components path ↔
      (∀ c ∈ front, P.slash ∉ c) ∧ [P.slash].intercalate front ++ [P.slash] <+: path := by
  constructor
  · rintro ⟨⟨back, hback⟩, hne⟩
    have hnil : back ≠ [] := by
      rintro rfl
      exact hne (by rw [← hback, List.append_nil])
    refine ⟨fun c hc => P.slash_not_mem (hback ▸ List.mem_append_left back hc), ?_⟩
    refine ⟨[P.slash].intercalate back, ?_⟩
    calc [P.slash].intercalate front ++ [P.slash] ++ [P.slash].intercalate back
        = [P.slash].intercalate (front ++ back) := by
          rw [P.intercalate_append hfront hnil, List.append_assoc, List.singleton_append]
      _ = path := by rw [hback, components, List.intercalate_splitOn]
  · rintro ⟨hfree, rest, rfl⟩
    have hcut : P.components ([P.slash].intercalate front ++ [P.slash] ++ rest) =
        front ++ P.components rest := by
      rw [List.append_assoc, List.singleton_append, components_append]
      congr 1
      exact List.splitOn_intercalate P.slash hfree hfront
    rw [hcut]
    exact ⟨List.prefix_append front _, fun heq =>
      List.splitOn_ne_nil P.slash rest (List.self_eq_append_right.mp heq)⟩

/-- Where a component stands in the path. -/
theorem exists_of_mem_components {path c : List α} (h : c ∈ P.components path) :
    ∃ front back, path = front ++ c ++ back ∧
      (front = [] ∨ ∃ f, front = f ++ [P.slash]) ∧ (back = [] ∨ ∃ b, back = P.slash :: b) := by
  generalize hcs : P.components path = cs at h
  have hpath : [P.slash].intercalate cs = path := by
    rw [← hcs, components, List.intercalate_splitOn]
  clear hcs
  induction cs generalizing path with
  | nil => contradiction
  | cons d ds ih =>
      cases ds with
      | nil =>
          rw [List.mem_singleton] at h
          refine ⟨[], [], ?_, .inl rfl, .inl rfl⟩
          rw [← hpath, h]
          simp [List.intercalate]
      | cons e es =>
          have hrest : path = d ++ P.slash :: [P.slash].intercalate (e :: es) := by
            rw [← hpath]
            simp [List.intercalate, List.intersperse]
          rcases List.mem_cons.mp h with rfl | h
          · exact ⟨[], _, by rw [hrest, List.nil_append], .inl rfl, .inr ⟨_, rfl⟩⟩
          · obtain ⟨front, back, heq, hfront, hback⟩ := ih h rfl
            refine ⟨d ++ P.slash :: front, back, ?_, .inr ?_, hback⟩
            · rw [hrest, heq]
              simp only [List.append_assoc, List.cons_append]
            · rcases hfront with rfl | ⟨f, rfl⟩
              · exact ⟨d, rfl⟩
              · exact ⟨d ++ P.slash :: f, by simp⟩

/-- A component is between separators once the path is put between two. -/
theorem infix_of_mem_components {path c : List α} (h : c ∈ P.components path) :
    P.slash :: c ++ [P.slash] <:+: P.slash :: path ++ [P.slash] := by
  obtain ⟨front, back, rfl, hfront, hback⟩ := P.exists_of_mem_components h
  have hleft : ∃ x, P.slash :: front = x ++ [P.slash] := by
    rcases hfront with rfl | ⟨f, rfl⟩
    · exact ⟨[], rfl⟩
    · exact ⟨P.slash :: f, rfl⟩
  have hright : ∃ y, back ++ [P.slash] = P.slash :: y := by
    rcases hback with rfl | ⟨b, rfl⟩
    · exact ⟨[], rfl⟩
    · exact ⟨b ++ [P.slash], rfl⟩
  obtain ⟨x, hx⟩ := hleft
  obtain ⟨y, hy⟩ := hright
  refine ⟨x, y, ?_⟩
  calc x ++ (P.slash :: c ++ [P.slash]) ++ y
      = (x ++ [P.slash]) ++ c ++ (P.slash :: y) := by simp
    _ = P.slash :: (front ++ c ++ back) ++ [P.slash] := by rw [← hx, ← hy]; simp

/-! ## paths that go down -/

theorem mem_of_mem_components {path c : List α} (h : c ∈ P.components path) {a : α} (ha : a ∈ c) :
    a ∈ path := by
  have hne : a ≠ P.slash := fun heq => P.slash_not_mem h (heq ▸ ha)
  have hmem := (P.infix_of_mem_components h).subset
    (List.mem_append_left _ (List.mem_cons_of_mem P.slash ha))
  rcases List.mem_append.mp hmem with hmem | hmem
  · exact (List.mem_cons.mp hmem).resolve_left hne
  · exact absurd (List.mem_singleton.mp hmem) hne

/-- Without `..` a path only goes down. -/
theorem prefix_foldl_step {cs : List (List α)} (h : P.parent ∉ cs) (place : List (List α)) :
    place <+: cs.foldl P.step place := by
  induction cs generalizing place with
  | nil => exact List.prefix_refl place
  | cons c cs ih =>
      rw [List.mem_cons, not_or] at h
      have hstep : place <+: P.step place c := by
        rw [step]
        split
        · exact List.prefix_refl place
        · rw [if_neg (Ne.symm h.1)]
          exact List.prefix_append place [c]
      exact hstep.trans (ih h.2 _)

theorem normalise_append (front back : List α) :
    P.normalise (front ++ P.slash :: back) =
      (P.components back).foldl P.step (P.normalise front) := by
  rw [normalise, components_append, List.foldl_append, normalise]

/-- A single component behind a path. -/
theorem normalise_append_name (path : List α) {name : List α} (h : P.slash ∉ name) :
    P.normalise (path ++ P.slash :: name) = P.step (P.normalise path) name := by
  rw [normalise_append, components, List.splitOn_eq_singleton h, List.foldl_cons, List.foldl_nil]

/-- A separator at the end leads nowhere. -/
theorem normalise_append_slash (path : List α) :
    P.normalise (path ++ [P.slash]) = P.normalise path := by
  rw [normalise_append, components, List.splitOn_nil, List.foldl_cons, List.foldl_nil, step,
    if_pos (by simp [isHere])]

theorem normalise_append_slashes (path : List α) (n : Nat) :
    P.normalise (path ++ List.replicate n P.slash) = P.normalise path := by
  induction n with
  | zero => rw [List.replicate_zero, List.append_nil]
  | succ n ih => rw [List.replicate_succ', ← List.append_assoc, normalise_append_slash, ih]

variable {P}

theorem Normalised.head? {path : List α} (h : P.Normalised path) : path.head? = some P.slash := by
  rw [← h]
  rfl

/-- A path is below its front part when there is no `..` behind that. -/
theorem below_append {root rest : List α} (hroot : root.head? = some P.slash)
    (hrest : P.parent ∉ P.components rest) : P.Below root (root ++ P.slash :: rest) := by
  refine ⟨?_, ?_⟩
  · rw [List.head?_append, hroot]
    rfl
  · rw [normalise_append]
    exact P.prefix_foldl_step hrest _

theorem weight_nonneg {c : List α} (h : c ≠ P.parent) : 0 ≤ P.weight c := by
  rw [weight, if_neg h]
  split
  · exact le_refl 0
  · exact Int.one_nonneg

/-- Without `..` the path stays below the place where it starts. -/
theorem staysInside_of_not_mem {path : List α} (h : P.parent ∉ P.components path) :
    P.StaysInside path := by
  intro front hfront
  apply List.sum_nonneg
  intro n hn
  obtain ⟨c, hc, rfl⟩ := List.mem_map.mp hn
  refine weight_nonneg ?_
  rintro rfl
  exact h (hfront.subset hc)

/-! ## directories -/

omit [DecidableEq α] in
theorem rdropWhile_append (p : α → Bool) (xs ys : List α) :
    (xs ++ ys).rdropWhile p = if ys.rdropWhile p = [] then xs.rdropWhile p
      else xs ++ ys.rdropWhile p := by
  simp only [List.rdropWhile, List.reverse_append, List.dropWhile_append, List.isEmpty_iff,
    List.reverse_eq_nil_iff]
  split
  · rfl
  · rw [List.reverse_append, List.reverse_reverse]

/-- A text is followed by the separators that are cut off its end. -/
theorem eq_append_replicate (path : List α) : ∃ n,
    path = path.rdropWhile (· == P.slash) ++ List.replicate n P.slash := by
  have hall : path.rtakeWhile (· == P.slash) =
      List.replicate (path.rtakeWhile (· == P.slash)).length P.slash := by
    rw [List.eq_replicate_iff]
    exact ⟨rfl, fun b hb => by simpa using List.mem_rtakeWhile_imp hb⟩
  refine ⟨(path.rtakeWhile (· == P.slash)).length, ?_⟩
  rw [← hall, List.rdropWhile_append_rtakeWhile]

/-- The directory of a path below `root`: `root`, or a part of what is behind. -/
theorem dirname_append {root tail : List α} (hroot : root.head? = some P.slash)
    (htail : ∃ a ∈ tail, a ≠ P.slash) :
    (P.dirname (root ++ P.slash :: tail) ≠ [] ∧
      ∃ n, root = P.dirname (root ++ P.slash :: tail) ++ List.replicate n P.slash) ∨
    ∃ c x, c ≠ [] ∧ tail = c ++ P.slash :: x ∧
      P.dirname (root ++ P.slash :: tail) = root ++ P.slash :: c := by
  have hcons : ∀ (p : α → Bool) (l : List α), (P.slash :: l).rdropWhile p =
      if l.rdropWhile p = [] then [P.slash].rdropWhile p else P.slash :: l.rdropWhile p :=
    fun p l => rdropWhile_append p [P.slash] l
  obtain ⟨a, ha, hne⟩ := htail
  generalize hA : tail.rdropWhile (· == P.slash) = A
  generalize hB : A.rdropWhile (· != P.slash) = B
  generalize hC : B.rdropWhile (· == P.slash) = C
  have hAne : A ≠ [] := by
    rw [← hA, ne_eq, List.rdropWhile_eq_nil_iff]
    exact fun hall => hne (by simpa using hall a ha)
  have hfirst : (root ++ P.slash :: tail).rdropWhile (· == P.slash) = root ++ P.slash :: A := by
    rw [rdropWhile_append, hcons, hA, if_neg hAne, if_neg (List.cons_ne_nil _ _)]
  have hsecond : (root ++ P.slash :: A).rdropWhile (· != P.slash) = root ++ P.slash :: B := by
    have hslash : (P.slash :: A).rdropWhile (· != P.slash) = P.slash :: B := by
      rw [hcons, hB]
      split
      · next h => simp [h, List.rdropWhile_singleton]
      · rfl
    rw [rdropWhile_append, hslash, if_neg (List.cons_ne_nil _ _)]
  have hthird : (root ++ P.slash :: B).rdropWhile (· == P.slash) =
      if C = [] then root.rdropWhile (· == P.slash) else root ++ P.slash :: C := by
    rw [rdropWhile_append, hcons, hC]
    by_cases h : C = [] <;> simp [h, List.rdropWhile_singleton]
  have hhead : (root ++ P.slash :: tail).head? = some P.slash := by
    rw [List.head?_append, hroot]
    rfl
  rw [dirname, hfirst, hsecond, hthird, hhead, if_pos rfl]
  by_cases hnil : C = []
  · left
    rw [if_pos hnil]
    obtain ⟨n, hn⟩ := P.eq_append_replicate root
    by_cases hfront : root.rdropWhile (· == P.slash) = []
    · -- The root is made of separators, and one of them is printed.
      rw [hfront, List.nil_append] at hn
      rw [hfront, if_neg (fun h => h rfl)]
      refine ⟨List.cons_ne_nil _ _, n - 1, ?_⟩
      cases n with
      | zero => rw [hn] at hroot; contradiction
      | succ n => rw [hn]; rfl
    · rw [if_pos hfront]
      exact ⟨hfront, n, hn⟩
  · right
    rw [if_neg hnil, if_pos (by simp)]
    have hBlast : ∀ hl : B ≠ [], B.getLast hl = P.slash := by
      rw [← hB]
      intro hl
      simpa using List.rdropWhile_last_not _ _ hl
    have hClast : ∀ hl : C ≠ [], C.getLast hl ≠ P.slash := by
      rw [← hC]
      intro hl
      simpa using List.rdropWhile_last_not _ _ hl
    have hsplit : C ++ B.rtakeWhile (· == P.slash) = B := by
      rw [← hC, List.rdropWhile_append_rtakeWhile]
    obtain ⟨y, hy⟩ : A <+: tail := hA ▸ List.rdropWhile_prefix _ tail
    obtain ⟨z, hz⟩ : B <+: A := hB ▸ List.rdropWhile_prefix _ A
    cases hr : B.rtakeWhile (· == P.slash) with
    | nil =>
        rw [hr, List.append_nil] at hsplit
        exact absurd (by simpa only [hsplit] using hBlast (hsplit ▸ hnil)) (hClast hnil)
    | cons b bs =>
        have hb : b = P.slash := by
          have hmem : b ∈ B.rtakeWhile (· == P.slash) := by rw [hr]; exact List.mem_cons_self
          simpa using List.mem_rtakeWhile_imp hmem
        refine ⟨C, bs ++ z ++ y, hnil, ?_, rfl⟩
        rw [← hy, ← hz, ← hsplit, hr, hb]
        simp only [List.append_assoc, List.cons_append]

/-- The directory of a path is not above `root` unless the path goes up on its way. -/
theorem below_dirname {root tail : List α} (hroot : root.head? = some P.slash)
    (htail : ∃ a ∈ tail, a ≠ P.slash)
    (hup : ¬ P.slash :: P.parent ++ [P.slash] <:+: P.slash :: tail) :
    P.Below root (P.dirname (root ++ P.slash :: tail)) := by
  rcases P.dirname_append hroot htail with ⟨hne, n, hn⟩ | ⟨c, x, -, hx, hdir⟩
  · generalize P.dirname (root ++ P.slash :: tail) = d at hne hn
    refine ⟨?_, ?_⟩
    · rwa [hn, List.head?_append_of_ne_nil _ hne] at hroot
    · have hsame : P.normalise root = P.normalise d := by rw [hn, normalise_append_slashes]
      exact hsame ▸ List.prefix_refl _
  · rw [hdir]
    refine below_append hroot fun hmem => hup ?_
    obtain ⟨s, t, hst⟩ := P.infix_of_mem_components hmem
    refine ⟨s, t ++ x, ?_⟩
    calc s ++ (P.slash :: P.parent ++ [P.slash]) ++ (t ++ x)
        = (s ++ (P.slash :: P.parent ++ [P.slash]) ++ t) ++ x := by simp
      _ = P.slash :: tail := by rw [hst, hx]; simp

end PathChars

end SushidaOs
