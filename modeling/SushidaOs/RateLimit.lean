import Mathlib.Algebra.Order.Ring.Rat
import Mathlib.Data.List.Chain
import Mathlib.Tactic.Linarith

/-!
# SushidaOs.RateLimit

An action that is wanted at some times and taken when enough time has passed since
it was taken last.

`due last now` says that enough time has passed.  Nothing else is asked of the times
until the last section, where they are rational numbers and `due` is a pause between
two actions.

* `isChain_taken`: every action is due after the one before it;
* `recent_of_wanted`: a wanted action is taken, or it is not due after an earlier one.
-/

namespace SushidaOs

namespace RateLimit

section

variable {τ : Type} (due : τ → τ → Bool)

/-- The times at which the action is taken, of those at which it is wanted. -/
def taken (last : τ) : List τ → List τ
  | [] => []
  | now :: later => if due last now then now :: taken now later else taken last later

/-- The time of the last action. -/
def latest (last : τ) (wanted : List τ) : τ := (taken due last wanted).getLastD last

theorem latest_cons (last now : τ) (later : List τ) :
    latest due last (now :: later) =
      if due last now then latest due now later else latest due last later := by
  rw [latest, taken]
  split
  · rw [List.getLastD_cons, latest]
  · rfl

/-- The limiter goes on from its last action. -/
theorem taken_append (last : τ) (wanted later : List τ) :
    taken due last (wanted ++ later) =
      taken due last wanted ++ taken due (latest due last wanted) later := by
  induction wanted generalizing last with
  | nil => rfl
  | cons now wanted ih =>
      rw [List.cons_append, taken, taken, latest_cons, ih, ih]
      split <;> simp

/-- One more event: it is taken if it is due. -/
theorem taken_concat (last : τ) (wanted : List τ) (now : τ) :
    taken due last (wanted ++ [now]) =
      taken due last wanted ++ if due (latest due last wanted) now then [now] else [] := by
  rw [taken_append]
  rfl

/-- Then it is also the latest. -/
theorem latest_concat (last : τ) (wanted : List τ) (now : τ) :
    latest due last (wanted ++ [now]) =
      if due (latest due last wanted) now then now else latest due last wanted := by
  rw [latest, taken_concat]
  split
  · rw [List.getLastD_concat]
  · rw [List.append_nil, latest]

/-- Only what was wanted is taken. -/
theorem sublist_taken (last : τ) (wanted : List τ) : (taken due last wanted).Sublist wanted := by
  induction wanted generalizing last with
  | nil => exact List.Sublist.refl []
  | cons now wanted ih =>
      rw [taken]
      split
      · exact (ih now).cons_cons now
      · exact (ih last).cons now

/-- **Each is due** after the one before it. -/
theorem isChain_taken (last : τ) (wanted : List τ) :
    List.IsChain (fun a b => due a b = true) (last :: taken due last wanted) := by
  induction wanted generalizing last with
  | nil => exact List.IsChain.singleton last
  | cons now wanted ih =>
      rw [taken]
      split
      · next hdue => exact List.IsChain.cons_cons hdue (ih now)
      · exact ih last

/-- The latest is the start or one that was taken. -/
theorem latest_mem (last : τ) (wanted : List τ) :
    latest due last wanted ∈ last :: taken due last wanted := by
  induction wanted generalizing last with
  | nil => exact List.mem_cons_self
  | cons now wanted ih =>
      rw [latest_cons, taken]
      split
      · exact List.mem_cons_of_mem last (ih now)
      · exact ih last

/-- A wanted action is taken unless it is not due after an earlier one. -/
theorem recent_of_wanted (last : τ) {before after : List τ} {now : τ} :
    now ∈ taken due last (before ++ now :: after) ∨
      ∃ r ∈ last :: taken due last before, due r now = false := by
  rw [taken_append, taken]
  cases hdue : due (latest due last before) now with
  | true => exact .inl (List.mem_append_right _ (by rw [if_pos rfl]; exact List.mem_cons_self))
  | false => exact .inr ⟨_, latest_mem due last before, hdue⟩

end

/-! ## a pause -/

/-- At least `pause` after the last action. -/
def afterPause (pause last now : Rat) : Bool := pause ≤ now - last

/-- All actions are the pause apart, not only neighbours. -/
theorem pairwise_taken {pause : Rat} (hpause : 0 ≤ pause) (last : Rat) (wanted : List Rat) :
    (last :: taken (afterPause pause) last wanted).Pairwise fun a b => a + pause ≤ b := by
  have hchain := isChain_taken (afterPause pause) last wanted
  have htrans : Trans (fun a b : Rat => a + pause ≤ b) (fun a b => a + pause ≤ b)
      fun a b => a + pause ≤ b := ⟨fun hab hbc => by linarith⟩
  rw [← List.isChain_iff_pairwise]
  refine hchain.imp fun a b h => ?_
  rw [afterPause, decide_eq_true_eq] at h
  linarith

/-- The actions need their time: each but the first its pause. -/
theorem length_taken_le {pause : Rat} (last : Rat) (wanted : List Rat) :
    last + (taken (afterPause pause) last wanted).length * pause ≤
      latest (afterPause pause) last wanted := by
  induction wanted generalizing last with
  | nil => simp [taken, latest]
  | cons now wanted ih =>
      rw [latest_cons, taken]
      split
      · next hdue =>
          rw [afterPause, decide_eq_true_eq] at hdue
          have hrest := ih now
          push_cast [List.length_cons]
          linarith
      · exact ih last

end RateLimit

end SushidaOs
