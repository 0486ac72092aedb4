/-!
# SushidaOs.Script

Programs that act on an outside world and keep a journal of what they did.

A script reads the journal written so far and appends to it.  Whatever the
outside world decides (the exit status of a command, whether a file can be
opened) is a function of the journal, so a script that is given such
functions as parameters covers every environment, also one that remembers.

`Spec p Q` says that from every journal the script `p` appends some entries
`t` and answers some `a` with `Q a t`.  The rule for `bind` hands the entries
of the first part to the second, so the specification of a long script is
put together from those of its parts without unfolding them.

`Agree view p q R` compares two scripts run on journals that look alike
through `view`: they stay alike, and the answers are related by `R`.

This module depends only on the Lean 4 core library.
-/

namespace SushidaOs

/-- A script over journals of `ε` that answers an `α`. -/
def Script (ε α : Type) : Type := List ε → α × List ε

namespace Script

variable {ε α β : Type}

/-- Answer without doing anything. -/
protected def pure (a : α) : Script ε α := fun journal => (a, journal)

/-- One script after the other. -/
protected def bind (p : Script ε α) (f : α → Script ε β) : Script ε β :=
  fun journal => f (p journal).1 (p journal).2

instance : Monad (Script ε) where
  pure := Script.pure
  bind := Script.bind

/-- Ask the outside world and enter its answer into the journal. -/
def ask (answer : List ε → α) (entry : α → ε) : Script ε α :=
  fun journal => (answer journal, journal ++ [entry (answer journal)])

/-- Make an entry. -/
def enter (e : ε) : Script ε Unit := ask (fun _ => ()) fun _ => e

/-- The answer and the journal of a script that starts with an empty one. -/
def run (p : Script ε α) : α × List ε := p []

/-- One after the other, over one journal. -/
theorem bind_apply (p : Script ε α) (f : α → Script ε β) (journal : List ε) :
    (p >>= f) journal = f (p journal).1 (p journal).2 := rfl

/-! ## specifications -/

/-- Every run of the script appends entries that satisfy `Q` with its answer. -/
def Spec (p : Script ε α) (Q : α → List ε → Prop) : Prop :=
  ∀ journal, ∃ t, (p journal).2 = journal ++ t ∧ Q (p journal).1 t

namespace Spec

theorem pure {Q : α → List ε → Prop} {a : α} (h : Q a []) :
    Spec (Pure.pure a : Script ε α) Q :=
  fun journal => ⟨[], (List.append_nil journal).symm, h⟩

theorem ask {Q : α → List ε → Prop} {answer : List ε → α} {entry : α → ε}
    (h : ∀ a, Q a [entry a]) : Spec (Script.ask answer entry) Q :=
  fun journal => ⟨[entry (answer journal)], rfl, h (answer journal)⟩

theorem enter {Q : Unit → List ε → Prop} {e : ε} (h : Q () [e]) : Spec (Script.enter e) Q :=
  ask fun _ => h

/-- **Sequencing**: the second script is specified given the answer and the
entries of the first. -/
theorem bind {p : Script ε α} {f : α → Script ε β} {Q : α → List ε → Prop}
    {R : β → List ε → Prop} (hp : Spec p Q)
    (hf : ∀ a t, Q a t → Spec (f a) fun b u => R b (t ++ u)) : Spec (p >>= f) R := by
  intro journal
  obtain ⟨t, ht, hQ⟩ := hp journal
  obtain ⟨u, hu, hR⟩ := hf _ t hQ (p journal).2
  refine ⟨t ++ u, ?_, hR⟩
  show (f (p journal).1 (p journal).2).2 = journal ++ (t ++ u)
  rw [hu, ht, List.append_assoc]

theorem mono {p : Script ε α} {Q R : α → List ε → Prop} (hp : Spec p Q)
    (h : ∀ a t, Q a t → R a t) : Spec p R := by
  intro journal
  obtain ⟨t, ht, hQ⟩ := hp journal
  exact ⟨t, ht, h _ t hQ⟩

/-- Two specifications of one script speak of the same entries. -/
theorem and {p : Script ε α} {Q R : α → List ε → Prop} (hp : Spec p Q) (hr : Spec p R) :
    Spec p fun a t => Q a t ∧ R a t := by
  intro journal
  obtain ⟨t, ht, hQ⟩ := hp journal
  obtain ⟨u, hu, hR⟩ := hr journal
  have htu : t = u := List.append_cancel_left (ht.symm.trans hu)
  exact ⟨t, ht, hQ, htu ▸ hR⟩

/-- What a specification says of a run from the empty journal. -/
theorem run {p : Script ε α} {Q : α → List ε → Prop} (hp : Spec p Q) :
    Q (Script.run p).1 (Script.run p).2 := by
  obtain ⟨t, ht, hQ⟩ := hp []
  have hrun : (Script.run p).2 = t := ht
  rw [hrun]
  exact hQ

end Spec

/-! ## two runs -/

/-- From journals that look alike through `view`, the two scripts end with
journals that look alike and with answers related by `R`. -/
def Agree {ω : Type} (view : ε → ω) (p : Script ε α) (q : Script ε β) (R : α → β → Prop) :
    Prop :=
  ∀ j j' : List ε, j.map view = j'.map view →
    R (p j).1 (q j').1 ∧ (p j).2.map view = (q j').2.map view

namespace Agree

variable {γ δ ω : Type} {view : ε → ω}

theorem pure {R : α → β → Prop} {a : α} {b : β} (h : R a b) :
    Agree view (Pure.pure a : Script ε α) (Pure.pure b : Script ε β) R :=
  fun _ _ hj => ⟨h, hj⟩

/-- The outside world answers alike, and the entries look alike. -/
theorem ask {R : α → β → Prop} {answer : List ε → α} {answer' : List ε → β} {entry : α → ε}
    {entry' : β → ε}
    (hanswer : ∀ j j' : List ε, j.map view = j'.map view → R (answer j) (answer' j'))
    (hentry : ∀ a b, R a b → view (entry a) = view (entry' b)) :
    Agree view (Script.ask answer entry) (Script.ask answer' entry') R := by
  intro j j' hj
  have hR := hanswer j j' hj
  refine ⟨hR, ?_⟩
  show (j ++ [entry (answer j)]).map view = (j' ++ [entry' (answer' j')]).map view
  rw [List.map_append, List.map_append, hj, List.map_singleton, List.map_singleton,
    hentry _ _ hR]

/-- **Sequencing** of two runs. -/
theorem bind {p : Script ε α} {q : Script ε β} {f : α → Script ε γ} {g : β → Script ε δ}
    {R : α → β → Prop} {S : γ → δ → Prop} (hp : Agree view p q R)
    (hf : ∀ a b, R a b → Agree view (f a) (g b) S) : Agree view (p >>= f) (q >>= g) S := by
  intro j j' hj
  obtain ⟨hR, hpq⟩ := hp j j' hj
  exact hf _ _ hR _ _ hpq

/-- The rest of two runs after equal answers. -/
theorem bind_eq {p q : Script ε α} {f : α → Script ε γ} {g : α → Script ε δ}
    {S : γ → δ → Prop} (hp : Agree view p q Eq)
    (hf : ∀ a, Agree view (f a) (g a) S) : Agree view (p >>= f) (q >>= g) S := by
  refine bind hp fun a b hab => ?_
  rw [← hab]
  exact hf a

/-- What agreement says of two runs from the empty journal. -/
theorem run {p : Script ε α} {q : Script ε β} {R : α → β → Prop} (h : Agree view p q R) :
    R (Script.run p).1 (Script.run q).1 ∧
      (Script.run p).2.map view = (Script.run q).2.map view :=
  h [] [] rfl

end Agree

end Script

end SushidaOs
