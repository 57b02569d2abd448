import Mathlib.Data.List.Basic

/-!
# Runs of a system that is given its choices

A system takes a step when it is given a choice that it allows. A run gives it a list of choices.

* `run_invariant`: what every step preserves holds at the end of a run.
* `run_measure`: a measure that every step lowers, but for the free ones, bounds the steps of a run.
-/

namespace ChoiceRun

variable {σ ε : Type} {step : σ → ε → Option σ}

/-- The state after the choices, when each of them was allowed. -/
def run (step : σ → ε → Option σ) (s : σ) : List ε → Option σ
  | [] => some s
  | choice :: choices => (step s choice).bind fun s' => run step s' choices

theorem run_cons_eq_some {s s' : σ} {choice : ε} {choices : List ε} :
    run step s (choice :: choices) = some s' ↔
      ∃ s₁, step s choice = some s₁ ∧ run step s₁ choices = some s' := Option.bind_eq_some_iff

variable {I : σ → Prop} {s s' : σ} {choices : List ε}

/-- What every step preserves holds at the end of a run. -/
theorem run_invariant (hstep : ∀ s choice s', step s choice = some s' → I s → I s')
    (hrun : run step s choices = some s') (hinit : I s) : I s' := by
  induction choices generalizing s with
  | nil => exact Option.some.inj hrun ▸ hinit
  | cons choice choices ih =>
    obtain ⟨s₁, htaken, hrest⟩ := run_cons_eq_some.1 hrun
    exact ih hrest (hstep s choice s₁ htaken hinit)

/-- A measure that the steps lower bounds their number; the free choices are not counted. -/
theorem run_measure (free : ε → Bool) (measure : σ → Nat)
    (hstep : ∀ s choice s', step s choice = some s' → I s → I s')
    (hfree : ∀ s choice s', step s choice = some s' → I s → free choice = true →
      measure s' ≤ measure s)
    (hless : ∀ s choice s', step s choice = some s' → I s → free choice = false →
      measure s' < measure s)
    (hrun : run step s choices = some s') (hinit : I s) :
    (choices.countP fun choice => !free choice) + measure s' ≤ measure s := by
  induction choices generalizing s with
  | nil =>
    obtain rfl := Option.some.inj hrun
    exact Nat.le_of_eq (Nat.zero_add _)
  | cons choice choices ih =>
    obtain ⟨s₁, htaken, hrest⟩ := run_cons_eq_some.1 hrun
    have hrest := ih hrest (hstep s choice s₁ htaken hinit)
    rw [List.countP_cons]
    cases hchoice : free choice with
    | true =>
      have hle := hfree s choice s₁ htaken hinit hchoice
      simp only [Bool.not_true, Bool.false_eq_true, if_false]
      omega
    | false =>
      have hlt := hless s choice s₁ htaken hinit hchoice
      simp only [Bool.not_false, if_true]
      omega

end ChoiceRun
