import Mathlib.Data.List.Lex
import Mathlib.Data.List.Sort
import SushidaOs.PyStr

/-!
# SushidaOs.StrOrder

The order of Python strings is the lexicographic one.
-/

namespace SushidaOs

namespace PyStr

/-- Python's order of texts is the lexicographic order. -/
theorem lt_iff (s t : PyStr) : PyStr.lt s t = true ↔ s < t := by
  induction s generalizing t with
  | nil =>
      cases t with
      | nil => simp [PyStr.lt]
      | cons d ds => simp [PyStr.lt]
  | cons c cs ih =>
      cases t with
      | nil => simp [PyStr.lt]
      | cons d ds => simp [PyStr.lt, ih, List.cons_lt_cons_iff]

/-- The strings with a common beginning stand together. -/
theorem prefix_of_between {front s t u : PyStr} (hst : PyStr.lt t s = false)
    (htu : PyStr.lt u t = false) (hs : front <+: s) (hu : front <+: u) : front <+: t := by
  induction front generalizing s t u with
  | nil => exact List.nil_prefix
  | cons c front ih =>
      obtain ⟨s, rfl, hs'⟩ := List.cons_prefix_iff.mp hs
      obtain ⟨u, rfl, hu'⟩ := List.cons_prefix_iff.mp hu
      cases t with
      | nil => simp [PyStr.lt] at hst
      | cons d t =>
          simp only [PyStr.lt, Bool.or_eq_false_iff, Bool.and_eq_false_imp,
            decide_eq_false_iff_not, decide_eq_true_eq, Fin.not_lt] at hst htu
          obtain rfl : c = d := Fin.le_antisymm hst.1 htu.1
          exact (List.cons_prefix_cons).mpr ⟨rfl, ih (hst.2 rfl) (htu.2 rfl) hs' hu'⟩

/-- `sorted` of strings. -/
def sort (strings : List PyStr) : List PyStr := strings.insertionSort fun s t => !PyStr.lt t s

theorem perm_sort (strings : List PyStr) : (sort strings).Perm strings :=
  List.perm_insertionSort _ strings

theorem lt_eq_false_iff (s t : PyStr) : PyStr.lt s t = false ↔ t ≤ s := by
  rw [← Bool.not_eq_true, lt_iff, not_lt]

/-- The sorted list is in order. -/
theorem pairwise_sort (strings : List PyStr) :
    (sort strings).Pairwise fun s t => PyStr.lt t s = false := by
  let before := fun s t : PyStr => (!PyStr.lt t s) = true
  have hle : ∀ s t : PyStr, before s t ↔ s ≤ t := by
    intro s t
    rw [← lt_eq_false_iff, ← Bool.not_eq_true']
  let _ : Std.Total before := ⟨fun s t => by rw [hle, hle]; exact le_total s t⟩
  let _ : IsTrans PyStr before := ⟨fun s t u => by rw [hle, hle, hle]; exact le_trans⟩
  refine (List.pairwise_insertionSort before strings).imp fun {s t} h => ?_
  exact (lt_eq_false_iff t s).mpr ((hle s t).mp h)

/-- Sorted lists without repetition are the same when their members are. -/
theorem eq_of_sorted {strings others : List PyStr}
    (hs : strings.Pairwise fun s t => PyStr.lt t s = false) (hsnodup : strings.Nodup)
    (ht : others.Pairwise fun s t => PyStr.lt t s = false) (htnodup : others.Nodup)
    (h : ∀ s, s ∈ strings ↔ s ∈ others) : strings = others := by
  refine List.Perm.eq_of_pairwise ?_ hs ht ((List.perm_ext_iff_of_nodup hsnodup htnodup).mpr h)
  intro s t _ _ hst hts
  rw [lt_eq_false_iff] at hst hts
  exact le_antisymm hst hts

end PyStr

end SushidaOs
