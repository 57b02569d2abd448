import Mathlib.Data.List.Basic
import Mathlib.Tactic.Common

/-!
# Computations that charge for their work

A computation that pays for every step out of a budget and asks before each step whether its caller
has cancelled it.

* `Meter` is what has been paid and the answers still to come; `step` pays for one step.
* `Charges x r`: whatever the meter, the computation pays a fixed number of steps and then has the
  result `r`. The rules follow the structure of the computation.
-/

namespace Charged

variable {ε α β : Type}

/-- Why a computation stops. That the fuel of a loop did not last says nothing about the program:
it would have gone on. -/
inductive Stop (ε : Type) where
  | cancelled
  | exhausted
  | failed (error : ε)
  | outOfFuel

/-- The steps paid, their maximum, and the answers to the coming questions whether the caller has
cancelled. -/
structure Meter where
  used : Nat
  maximum : Nat
  cancelled : Nat → Bool

/-- The meter after a number of steps. -/
def Meter.after (m : Meter) (n : Nat) : Meter :=
  { m with used := m.used + n, cancelled := fun k => m.cancelled (n + k) }

/-- A computation on a meter. -/
abbrev Work (ε : Type) : Type → Type := StateT Meter (Except (Stop ε))

/-- Stops. -/
def stop (e : Stop ε) : Work ε α := fun _ => .error e

/-- Pays for one step. -/
def step : Work ε Unit := fun m =>
  if m.cancelled 0 then .error .cancelled
  else if m.maximum ≤ m.used then .error .exhausted
  else .ok ((), m.after 1)

/-- Pays for a number of steps. -/
def steps : Nat → Work ε Unit
  | 0 => pure ()
  | n + 1 => do
    step
    steps n

/-- A value that is there, or else a stop. -/
def orStop (e : Stop ε) : Option α → Work ε α
  | some a => pure a
  | none => stop e

/-- Goes on with a result that has been computed. -/
def settle : Except (Stop ε) α → Work ε α
  | .ok a => pure a
  | .error e => stop e

/-- The computation pays for a number of steps and then has the result. -/
def Charges (x : Work ε α) (r : Except (Stop ε) α) : Prop :=
  ∃ cost, x = steps cost >>= fun _ => settle r

theorem steps_add (m n : Nat) : (steps (m + n) : Work ε Unit) = steps m >>= fun _ => steps n := by
  induction m with
  | zero => rw [Nat.zero_add, steps, pure_bind]
  | succ m ih => rw [Nat.succ_add, steps, ih, steps, bind_assoc]

theorem steps_add_bind (m n : Nat) (x : Work ε α) :
    (steps (m + n) >>= fun _ => x) = steps m >>= fun _ => steps n >>= fun _ => x := by
  rw [steps_add, bind_assoc]

/-! ### Rules -/

namespace Charges

variable {x : Work ε α} {f : α → Work ε β} {a : α} {r : Except (Stop ε) β} {e : Stop ε}

theorem settle (r : Except (Stop ε) α) : Charges (settle r) r := by
  refine ⟨0, ?_⟩
  rw [steps, pure_bind]

theorem pure (a : α) : Charges (Pure.pure a : Work ε α) (.ok a) := settle (.ok a)

theorem stop (e : Stop ε) : Charges (stop e : Work ε α) (.error e) := settle (.error e)

theorem steps (n : Nat) : Charges (steps n : Work ε Unit) (.ok ()) := by
  refine ⟨n, ?_⟩
  exact (bind_pure _).symm

theorem step : Charges (step : Work ε Unit) (.ok ()) := by
  have h : (Charged.step : Work ε Unit) = Charged.steps 1 := by
    rw [Charged.steps, Charged.steps, bind_pure]
  rw [h]
  exact steps 1

theorem bind (hx : Charges x (.ok a)) (hf : Charges (f a) r) : Charges (x >>= f) r := by
  obtain ⟨m, rfl⟩ := hx
  obtain ⟨n, hn⟩ := hf
  refine ⟨m + n, ?_⟩
  rw [bind_assoc, steps_add_bind, ← hn]
  rfl

theorem bind_error (hx : Charges x (.error e)) : Charges (x >>= f) (.error e) := by
  obtain ⟨m, rfl⟩ := hx
  exact ⟨m, bind_assoc _ _ _⟩

/-- A part and what follows it, each with its result. -/
theorem andThen {rx : Except (Stop ε) α} {g : α → Except (Stop ε) β} (hx : Charges x rx)
    (hf : ∀ a, rx = .ok a → Charges (f a) (g a)) : Charges (x >>= f) (rx >>= g) := by
  cases rx with
  | ok a => exact hx.bind (hf a rfl)
  | error e => exact hx.bind_error

/-- A computation that only pays. -/
theorem paid {x : Work ε Unit} {y : Work ε β} (hx : Charges x (.ok ())) (hy : Charges y r) :
    Charges (x >>= fun _ => y) r :=
  hx.bind hy

/-- A loop over a list whose turns have results of their own. -/
theorem mapM {f : α → Work ε β} {g : α → Except (Stop ε) β} {l : List α}
    (h : ∀ a ∈ l, Charges (f a) (g a)) : Charges (l.mapM f) (l.mapM g) := by
  induction l with
  | nil => exact pure []
  | cons a l ih =>
    rw [List.mapM_cons, List.mapM_cons]
    refine (h a List.mem_cons_self).andThen fun b _ => ?_
    refine (ih fun a ha => h a (List.mem_cons_of_mem _ ha)).andThen fun bs _ => ?_
    exact pure (b :: bs)

/-- A loop over a list that changes a state. -/
theorem foldlM {σ : Type} {f : σ → α → Work ε σ} {g : σ → α → σ} {l : List α} {s : σ}
    (h : ∀ s, ∀ a ∈ l, Charges (f s a) (.ok (g s a))) :
    Charges (l.foldlM f s) (.ok (l.foldl g s)) := by
  induction l generalizing s with
  | nil => exact pure s
  | cons a l ih =>
    rw [List.foldlM_cons, List.foldl_cons]
    exact (h s a List.mem_cons_self).bind
      (ih fun s a ha => h s a (List.mem_cons_of_mem _ ha))

/-- A loop over a list that only pays. -/
theorem forM {f : α → Work ε Unit} {l : List α} (h : ∀ a ∈ l, Charges (f a) (.ok ())) :
    Charges (l.forM f) (.ok ()) := by
  induction l with
  | nil => exact pure ()
  | cons a l ih =>
    change Charges (f a >>= fun _ => l.forM f) _
    exact (h a List.mem_cons_self).paid (ih fun a ha => h a (List.mem_cons_of_mem _ ha))

end Charges

end Charged
