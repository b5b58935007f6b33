import Mathlib.Logic.Relation

/-!
# Reachable states of a transition system

A transition system is a set of initial states and a step relation. `Reachable.invariant` is the
one induction over runs: what holds initially and is preserved by every step holds of every
reachable state.
-/

namespace Transition

variable {σ : Type*}

/-- The states some finite run reaches from an initial state. -/
inductive Reachable (init : σ → Prop) (step : σ → σ → Prop) : σ → Prop where
  | init {s : σ} : init s → Reachable init step s
  | step {s s' : σ} : Reachable init step s → step s s' → Reachable init step s'

/-- An invariant of the steps that holds initially holds of every reachable state. -/
theorem Reachable.invariant {init : σ → Prop} {step : σ → σ → Prop} (inv : σ → Prop)
    (hinit : ∀ s, init s → inv s) (hstep : ∀ s s', inv s → step s s' → inv s') {s : σ}
    (h : Reachable init step s) : inv s := by
  induction h with
  | init h => exact hinit _ h
  | step _ hs ih => exact hstep _ _ ih hs

/-- A run goes on to reachable states. -/
theorem Reachable.steps {init : σ → Prop} {step : σ → σ → Prop} {s s' : σ}
    (h : Reachable init step s) (hrun : Relation.ReflTransGen step s s') :
    Reachable init step s' := by
  induction hrun with
  | refl => exact h
  | tail _ hstep ih => exact ih.step hstep

end Transition
