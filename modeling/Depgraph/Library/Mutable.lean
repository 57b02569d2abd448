import Mathlib.Tactic.Common

/-!
# Computations on a state that errors do not roll back

A method that takes its receiver by mutable reference and returns a result: what it wrote before it
failed stays written. `outcome` runs such a computation.
-/

namespace Mutable

variable {ε σ α β : Type}

/-- A computation that changes a state and may fail. -/
abbrev Mutating (ε σ α : Type) : Type := ExceptT ε (StateM σ) α

/-- The result and the state that is left. -/
def outcome (m : Mutating ε σ α) (s : σ) : Except ε α × σ := (ExceptT.run m).run s

/-- A computation that only looks. -/
def attempt (x : Except ε α) : Mutating ε σ α := ExceptT.mk (pure x)

@[simp] theorem outcome_pure (a : α) (s : σ) :
    outcome (pure a : Mutating ε σ α) s = (.ok a, s) := rfl

@[simp] theorem outcome_attempt (x : Except ε α) (s : σ) :
    outcome (attempt x : Mutating ε σ α) s = (x, s) := rfl

@[simp] theorem outcome_get (s : σ) : outcome (get : Mutating ε σ σ) s = (.ok s, s) := rfl

@[simp] theorem outcome_modify (f : σ → σ) (s : σ) :
    outcome (modify f : Mutating ε σ Unit) s = (.ok (), f s) := rfl

theorem outcome_bind (m : Mutating ε σ α) (f : α → Mutating ε σ β) (s : σ) :
    outcome (m >>= f) s = match outcome m s with
      | (.ok a, s') => outcome (f a) s'
      | (.error error, s') => (.error error, s') := by
  have hbind : outcome (m >>= f) s = (ExceptT.run m >>= ExceptT.bindCont f).run s := rfl
  rw [hbind, StateT.run_bind]
  change (ExceptT.bindCont f (outcome m s).1).run (outcome m s).2 = _
  obtain ⟨result, s'⟩ := outcome m s
  cases result <;> rfl

@[simp] theorem outcome_bind_get (f : σ → Mutating ε σ β) (s : σ) :
    outcome (get >>= f) s = outcome (f s) s :=
  outcome_bind _ _ _

@[simp] theorem outcome_bind_modify (g : σ → σ) (f : Unit → Mutating ε σ β) (s : σ) :
    outcome (modify g >>= f) s = outcome (f ()) (g s) :=
  outcome_bind _ _ _

@[simp] theorem outcome_bind_attempt_ok (a : α) (f : α → Mutating ε σ β) (s : σ) :
    outcome (attempt (.ok a) >>= f) s = outcome (f a) s :=
  outcome_bind _ _ _

@[simp] theorem outcome_bind_attempt_error (error : ε) (f : α → Mutating ε σ β) (s : σ) :
    outcome (attempt (.error error) >>= f) s = (.error error, s) :=
  outcome_bind _ _ _

/-- A sequence succeeds if its parts do. -/
theorem outcome_bind_ok {m : Mutating ε σ α} {f : α → Mutating ε σ β} {s t : σ} {b : β} :
    outcome (m >>= f) s = (.ok b, t) ↔
      ∃ a s', outcome m s = (.ok a, s') ∧ outcome (f a) s' = (.ok b, t) := by
  rw [outcome_bind]
  obtain ⟨result, s'⟩ := outcome m s
  cases result with
  | ok a => simp
  | error error => simp

/-! ### Runs that go on after failures -/

section Runs

variable {ι τ : Type} (f : ι → Mutating ε σ Unit)

/-- The state after one call for each item, whether it fails or not. -/
def afterAll (s : σ) (items : List ι) : σ :=
  items.foldl (fun s item => (outcome (f item) s).2) s

/-- The items whose calls succeed. -/
def succeeded : σ → List ι → List ι
  | _, [] => []
  | s, item :: items =>
    match outcome (f item) s with
    | (.ok (), s') => item :: succeeded s' items
    | (.error _, s') => succeeded s' items

/-- A part of the state that failures do not touch is what the successful calls make of it. -/
theorem view_afterAll (view : σ → τ) {g : τ → ι → τ}
    (hok : ∀ s item s', outcome (f item) s = (.ok (), s') → view s' = g (view s) item)
    (herror : ∀ s item error s', outcome (f item) s = (.error error, s') → view s' = view s)
    (s : σ) (items : List ι) :
    view (afterAll f s items) = (succeeded f s items).foldl g (view s) := by
  induction items generalizing s with
  | nil => rfl
  | cons item items ih =>
    unfold afterAll succeeded
    rw [List.foldl_cons]
    cases hrun : outcome (f item) s with | mk result s' =>
    cases result with
    | ok u =>
      rw [List.foldl_cons, ← hok s item s' hrun]
      exact ih s'
    | error error =>
      rw [← herror s item error s' hrun]
      exact ih s'

end Runs

end Mutable
