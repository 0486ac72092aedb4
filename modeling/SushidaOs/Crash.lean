import Mathlib.Data.List.Infix
import SushidaOs.Script

/-!
# SushidaOs.Crash

Scripts that act on a state and may be stopped between any two actions.

The state is what the journal made of the state at the start.  `Crash.Triple`
is a Hoare triple for a script with a crash condition: from every state with
the precondition, every state on the way satisfies the crash condition, and
the last one the postcondition.  Whoever stops the script finds a state with
the crash condition.

The crash condition is fixed in a section, so that the rules read like those
of a logic without crashes.
-/

namespace SushidaOs

namespace Crash

/-- A state, how an action changes it, and what shall hold at every moment. -/
structure Safety (ε σ : Type) where
  start : σ
  step : σ → ε → σ
  safe : σ → Prop

variable {ε σ α β : Type} {S : Safety ε σ}

/-- The state that a journal leaves. -/
def Safety.after (S : Safety ε σ) (journal : List ε) : σ := journal.foldl S.step S.start

/-- The state after one more event. -/
theorem Safety.after_snoc (S : Safety ε σ) (journal : List ε) (e : ε) :
    S.after (journal ++ [e]) = S.step (S.after journal) e := by
  simp [Safety.after]

/-- The triple of a script. -/
def Triple (S : Safety ε σ) (P : σ → Prop) (p : Script ε α) (Q : α → σ → Prop) : Prop :=
  ∀ journal, P (S.after journal) →
    ∃ t, (p journal).2 = journal ++ t ∧ (∀ u, u <+: t → S.safe (S.after (journal ++ u))) ∧
      Q (p journal).1 (S.after (journal ++ t))

namespace Triple

theorem pure {P : σ → Prop} {Q : α → σ → Prop} {a : α} (hsafe : ∀ s, P s → S.safe s)
    (h : ∀ s, P s → Q a s) : Triple S P (Pure.pure a : Script ε α) Q := by
  intro journal hP
  refine ⟨[], (List.append_nil journal).symm, ?_, ?_⟩
  · intro u hu
    rw [List.prefix_nil.mp hu, List.append_nil]
    exact hsafe _ hP
  · rw [List.append_nil]
    exact h _ hP

/-- One action.  `A` is what is known of its answers in each state. -/
theorem ask_known {P : σ → Prop} {Q : α → σ → Prop} {A : σ → α → Prop} {answer : List ε → α}
    {entry : α → ε} (hanswer : ∀ journal, A (S.after journal) (answer journal))
    (hsafe : ∀ s, P s → S.safe s)
    (h : ∀ s a, P s → A s a → S.safe (S.step s (entry a)) ∧ Q a (S.step s (entry a))) :
    Triple S P (Script.ask answer entry) Q := by
  intro journal hP
  obtain ⟨hstep, hQ⟩ := h _ (answer journal) hP (hanswer journal)
  rw [← S.after_snoc] at hstep hQ
  refine ⟨[entry (answer journal)], rfl, ?_, hQ⟩
  intro u hu
  cases u with
  | nil =>
      rw [List.append_nil]
      exact hsafe _ hP
  | cons e u =>
      obtain ⟨rfl, hnil⟩ := List.cons_prefix_cons.mp hu
      rw [List.prefix_nil.mp hnil]
      exact hstep

theorem ask {P : σ → Prop} {Q : α → σ → Prop} {answer : List ε → α} {entry : α → ε}
    (hsafe : ∀ s, P s → S.safe s)
    (h : ∀ s a, P s → S.safe (S.step s (entry a)) ∧ Q a (S.step s (entry a))) :
    Triple S P (Script.ask answer entry) Q :=
  ask_known (A := fun _ _ => True) (fun _ => trivial) hsafe fun s a hP _ => h s a hP

/-- Looking at the world changes nothing. -/
theorem look {P : σ → Prop} {look : List ε → α} (hsafe : ∀ s, P s → S.safe s) :
    Triple S P (fun journal => (look journal, journal)) fun _ => P := by
  intro journal hP
  refine ⟨[], (List.append_nil journal).symm, ?_, by rwa [List.append_nil]⟩
  intro u hu
  rw [List.prefix_nil.mp hu, List.append_nil]
  exact hsafe _ hP

/-- **Sequencing**. -/
theorem bind {P : σ → Prop} {Q : α → σ → Prop} {R : β → σ → Prop} {p : Script ε α}
    {f : α → Script ε β} (hp : Triple S P p Q) (hf : ∀ a, Triple S (Q a) (f a) R) :
    Triple S P (p >>= f) R := by
  intro journal hP
  obtain ⟨t, ht, hsafe, hQ⟩ := hp journal hP
  rw [← ht] at hQ
  obtain ⟨u, hu, hsafe', hR⟩ := hf _ (p journal).2 hQ
  refine ⟨t ++ u, ?_, ?_, ?_⟩
  · show (f (p journal).1 (p journal).2).2 = journal ++ (t ++ u)
    rw [hu, ht, List.append_assoc]
  · intro v hv
    cases List.prefix_or_prefix_of_prefix hv (List.prefix_append t u) with
    | inl hleft => exact hsafe v hleft
    | inr hright =>
        obtain ⟨w, rfl⟩ := hright
        rw [← List.append_assoc, ← ht]
        exact hsafe' w ((List.prefix_append_right_inj t).mp hv)
  · rw [← List.append_assoc, ← ht]
    exact hR

theorem mono {P P' : σ → Prop} {Q Q' : α → σ → Prop} {p : Script ε α} (hp : Triple S P p Q)
    (hpre : ∀ s, P' s → P s) (hpost : ∀ a s, Q a s → Q' a s) : Triple S P' p Q' := by
  intro journal hP
  obtain ⟨t, ht, hsafe, hQ⟩ := hp journal (hpre _ hP)
  exact ⟨t, ht, hsafe, hpost _ _ hQ⟩

/-- A fact that the precondition gives. -/
theorem given {φ : Prop} {P : σ → Prop} {Q : α → σ → Prop} {p : Script ε α}
    (h : ∀ s, P s → φ) (hp : φ → Triple S P p Q) : Triple S P p Q :=
  fun journal hP => hp (h _ hP) journal hP

/-- What a triple says of a run: every part of its journal leaves a safe
state. -/
theorem run {P : σ → Prop} {Q : α → σ → Prop} {p : Script ε α} (hp : Triple S P p Q)
    (hstart : P S.start) :
    (∀ u, u <+: p.run.2 → S.safe (S.after u)) ∧ Q p.run.1 (S.after p.run.2) := by
  obtain ⟨t, ht, hsafe, hQ⟩ := hp [] hstart
  have hrun : p.run.2 = t := ht
  rw [hrun]
  exact ⟨hsafe, hQ⟩

end Triple

end Crash

end SushidaOs
