/-!
# SushidaOs.Machine

Labelled machines and their runs: the plumbing under every interleaving
argument of this development.

A machine has an initial state and a partial step function.  The label of a
step is everything the step does not decide by itself (which thread moves,
what the outside world answers), so quantifying over runs quantifies over
every schedule and every environment at once.  A step emits events; the
*trace* of a run is the concatenation of what its steps emitted.

`Run C tr s` is a run from the initial state to `s` with trace `tr` all of
whose steps meet the condition `C` on the state before the step and its
label.  `Reaches` is the unconditional case.

This module depends only on the Lean 4 core library.
-/

namespace SushidaOs

/-- A deterministic labelled machine.  `step s a = none` means that the step
`a` is not enabled in `s`. -/
structure Machine (σ lab ev : Type) where
  init : σ
  step : σ → lab → Option (σ × List ev)

namespace Machine

variable {σ lab ev : Type}

/-- Runs all of whose steps meet `C`, with their trace and last state. -/
inductive Run (M : Machine σ lab ev) (C : σ → lab → Prop) : List ev → σ → Prop
  | start : Run M C [] M.init
  | next {tr s a s' evs} : Run M C tr s → C s a → M.step s a = some (s', evs) →
      Run M C (tr ++ evs) s'

/-- Runs with no condition on their steps: every interleaving. -/
def Reaches (M : Machine σ lab ev) : List ev → σ → Prop := Run M fun _ _ => True

/-! ## the invariant rules -/

/-- **Invariant rule**: a relation between trace and state that holds at the
start and is kept by every step of the run holds at its end.  The step may
use that the state before it was itself reached by such a run. -/
theorem Run.invariant {M : Machine σ lab ev} {C : σ → lab → Prop} {I : List ev → σ → Prop}
    (h0 : I [] M.init)
    (hs : ∀ tr s a s' evs, Run M C tr s → I tr s → C s a → M.step s a = some (s', evs) →
      I (tr ++ evs) s')
    {tr : List ev} {s : σ} (h : Run M C tr s) : I tr s := by
  induction h with
  | start => exact h0
  | next hr hc hstep ih => exact hs _ _ _ _ _ hr ih hc hstep

/-- Every cut of the trace of a run lies inside one step: the events before
the cut are the trace of a shorter run followed by the first events of its
next step. -/
theorem Run.split {M : Machine σ lab ev} {C : σ → lab → Prop} {tr : List ev} {s : σ}
    (h : Run M C tr s) : ∀ pre e post, tr = pre ++ e :: post →
    ∃ tr₀ s₀ a s₁ before after, Run M C tr₀ s₀ ∧ C s₀ a ∧
      M.step s₀ a = some (s₁, before ++ e :: after) ∧ pre = tr₀ ++ before := by
  induction h with
  | start => intro pre e post he; simp at he
  | @next tr s a s' evs hr hc hstep ih =>
      intro pre e post he
      rcases List.append_eq_append_iff.mp he with ⟨mid, hpre, hevs⟩ | ⟨mid, htr, hrest⟩
      · -- the cut lies in the events of the last step
        exact ⟨tr, s, a, s', mid, post, hr, hc, by rw [hstep, hevs], hpre⟩
      · cases mid with
        | nil =>
            simp only [List.nil_append] at hrest
            simp only [List.append_nil] at htr
            exact ⟨tr, s, a, s', [], post, hr, hc, by rw [hstep, ← hrest, List.nil_append],
              by rw [htr, List.append_nil]⟩
        | cons e' mid' =>
            simp only [List.cons_append, List.cons.injEq] at hrest
            obtain ⟨rfl, -⟩ := hrest
            exact ih pre e mid' htr

/-! ## executing a schedule -/

/-- Execute a list of labels from a state with a trace; every step must be
enabled and meet the condition. -/
def execFrom (M : Machine σ lab ev) (C : σ → lab → Prop) [∀ s a, Decidable (C s a)] :
    List lab → List ev → σ → Option (List ev × σ)
  | [], tr, s => some (tr, s)
  | a :: as, tr, s =>
      if C s a then
        match M.step s a with
        | none => none
        | some (s', evs) => execFrom M C as (tr ++ evs) s'
      else none

/-- Execute a schedule from the initial state. -/
def exec (M : Machine σ lab ev) (C : σ → lab → Prop) [∀ s a, Decidable (C s a)]
    (as : List lab) : Option (List ev × σ) :=
  M.execFrom C as [] M.init

theorem run_of_execFrom {M : Machine σ lab ev} {C : σ → lab → Prop} [∀ s a, Decidable (C s a)]
    {as : List lab} {tr tr' : List ev} {s s' : σ} (hr : Run M C tr s)
    (h : M.execFrom C as tr s = some (tr', s')) : Run M C tr' s' := by
  induction as generalizing tr s with
  | nil =>
      simp only [execFrom, Option.some.injEq, Prod.mk.injEq] at h
      obtain ⟨rfl, rfl⟩ := h
      exact hr
  | cons a as ih =>
      simp only [execFrom] at h
      split at h
      · next hc =>
          cases hstep : M.step s a with
          | none => simp only [hstep] at h; contradiction
          | some p =>
              obtain ⟨s₁, evs⟩ := p
              simp only [hstep] at h
              exact ih (.next hr hc hstep) h
      · contradiction

/-- A schedule that executes is a run. -/
theorem run_of_exec {M : Machine σ lab ev} {C : σ → lab → Prop} [∀ s a, Decidable (C s a)]
    {as : List lab} {tr : List ev} {s : σ} (h : M.exec C as = some (tr, s)) : Run M C tr s :=
  run_of_execFrom .start h

/-- A schedule that executes to a state with `P` shows that such a state is
reached. -/
theorem exists_run (M : Machine σ lab ev) (C : σ → lab → Prop) [∀ s a, Decidable (C s a)]
    (as : List lab) (P : List ev → σ → Prop) [∀ tr s, Decidable (P tr s)]
    (h : ((M.exec C as).any fun p => P p.1 p.2) = true) : ∃ tr s, Run M C tr s ∧ P tr s := by
  cases hexec : M.exec C as with
  | none => simp [hexec] at h
  | some p =>
      obtain ⟨tr, s⟩ := p
      simp only [hexec, Option.any_some, decide_eq_true_eq] at h
      exact ⟨tr, s, run_of_exec hexec, h⟩

/-! ## refinement -/

/-- Every step of `M` is, seen through `abs` and the event filter `keep`, no
step or one step of `N`. -/
structure Refines {τ lab' : Type} (M : Machine σ lab ev) (N : Machine τ lab' ev)
    (abs : σ → τ) (keep : ev → Bool) : Prop where
  init : abs M.init = N.init
  step : ∀ s a s' evs, M.step s a = some (s', evs) →
    (abs s' = abs s ∧ evs.filter keep = []) ∨
      ∃ b, N.step (abs s) b = some (abs s', evs.filter keep)

/-- **Refinement of runs**: a run of the concrete machine is a run of the
abstract one, with the kept part of its trace. -/
theorem Refines.run {τ lab' : Type} {M : Machine σ lab ev} {N : Machine τ lab' ev}
    {abs : σ → τ} {keep : ev → Bool} (hR : Refines M N abs keep) {C : σ → lab → Prop}
    {tr : List ev} {s : σ} (h : Run M C tr s) : N.Reaches (tr.filter keep) (abs s) := by
  induction h with
  | start => rw [hR.init]; exact .start
  | next _ _ hstep ih =>
      rw [List.filter_append]
      rcases hR.step _ _ _ _ hstep with ⟨habs, hnil⟩ | ⟨b, hb⟩
      · rw [habs, hnil, List.append_nil]; exact ih
      · exact .next ih trivial hb

end Machine

end SushidaOs
