import Depgraph.Library.Metered
import Mathlib.Algebra.BigOperators.Group.List.Basic
import Mathlib.Algebra.Ring.Nat

/-!
# The cost of a metered computation

`Costs maximum error x n a`: below the maximum the computation counts a fixed number of steps and
yields a fixed value, and it fails exactly if the maximum does not allow these steps. The rules follow
the structure of the computation; costs add up (`Costs.bind`), and a loop that adds entries to
something costs one step for each entry (`Costs.foldlM_adds`).
-/

namespace Metered

variable {ε α β γ σ : Type}

/-- Below the maximum the computation counts `n` steps and yields the value; it fails if the maximum
does not allow them. -/
def Costs (maximum : Nat) (error : ε) (x : Work Nat ε α) (n : Nat) (a : α) : Prop :=
  ∀ used ≤ maximum, x used = if used + n ≤ maximum then .ok (a, used + n) else .error error

variable {maximum : Nat} {error : ε}

theorem Costs.pure (a : α) : Costs maximum error (Pure.pure a : Work Nat ε α) 0 a := by
  intro used hused
  rw [Nat.add_zero, if_pos hused]
  rfl

theorem Costs.step : Costs maximum error (step maximum error) 1 () := by
  intro used hused
  unfold Metered.step
  by_cases hfull : maximum ≤ used
  · rw [if_pos hfull, if_neg (by omega)]
  · rw [if_neg hfull, if_pos (by omega)]

theorem Costs.bind {x : Work Nat ε α} {f : α → Work Nat ε β} {m n : Nat} {a : α} {b : β}
    (hx : Costs maximum error x m a) (hf : Costs maximum error (f a) n b) :
    Costs maximum error (x >>= f) (m + n) b := by
  intro used hused
  have hrun : (x >>= f) used = (x used >>= fun p => f p.1 p.2) := rfl
  rw [hrun, hx used hused]
  by_cases hm : used + m ≤ maximum
  · rw [if_pos hm, ← Nat.add_assoc]
    exact hf (used + m) hm
  · rw [if_neg hm, if_neg (by omega)]
    rfl

/-- A step before a computation. -/
theorem Costs.stepped {x : Work Nat ε α} {n : Nat} {a : α} (hx : Costs maximum error x n a) :
    Costs maximum error (Metered.step maximum error >>= fun _ => x) (n + 1) a :=
  Nat.add_comm 1 n ▸ Costs.step.bind hx

/-- A step, and then a value. -/
theorem Costs.step_pure (a : α) :
    Costs maximum error (Metered.step maximum error >>= fun _ => Pure.pure a) 1 a :=
  (Costs.pure a).stepped

theorem Costs.ite {c : Prop} [Decidable c] {x y : Work Nat ε α} {m n : Nat} {a b : α}
    (hx : Costs maximum error x m a) (hy : Costs maximum error y n b) :
    Costs maximum error (if c then x else y) (if c then m else n) (if c then a else b) := by
  split_ifs
  · exact hx
  · exact hy

/-- The rule for a loop over a list each of whose turns adds entries, one step for each. -/
theorem Costs.foldlM_adds {f : σ → α → Work Nat ε σ} {add : σ → γ → σ} {entries : α → List γ}
    {l : List α} {s : σ}
    (h : ∀ s, ∀ a ∈ l, Costs maximum error (f s a) (entries a).length ((entries a).foldl add s)) :
    Costs maximum error (l.foldlM f s) (l.flatMap entries).length ((l.flatMap entries).foldl add s) := by
  induction l generalizing s with
  | nil => exact Costs.pure s
  | cons a l ih =>
    rw [List.foldlM_cons, List.flatMap_cons, List.length_append, List.foldl_append]
    exact (h s a List.mem_cons_self).bind (ih fun s b hb => h s b (List.mem_cons_of_mem _ hb))

/-- The rule for a loop that changes a state. -/
theorem Costs.foldlM {f : σ → α → Work Nat ε σ} {g : σ → α → σ} {cost : α → Nat} {l : List α} {s : σ}
    (h : ∀ s, ∀ a ∈ l, Costs maximum error (f s a) (cost a) (g s a)) :
    Costs maximum error (l.foldlM f s) (l.map cost).sum (l.foldl g s) := by
  induction l generalizing s with
  | nil => exact Costs.pure s
  | cons a l ih =>
    rw [List.foldlM_cons, List.map_cons, List.sum_cons, List.foldl_cons]
    exact (h s a List.mem_cons_self).bind (ih fun s b hb => h s b (List.mem_cons_of_mem _ hb))

/-- The rule for a loop that yields a list of results. -/
theorem Costs.mapM {f : α → Work Nat ε β} {g : α → β} {cost : α → Nat} {l : List α}
    (h : ∀ a ∈ l, Costs maximum error (f a) (cost a) (g a)) :
    Costs maximum error (l.mapM f) (l.map cost).sum (l.map g) := by
  induction l with
  | nil => exact Costs.pure []
  | cons a l ih =>
    rw [List.mapM_cons, List.map_cons, List.map_cons, List.sum_cons]
    refine (h a List.mem_cons_self).bind ?_
    exact Costs.bind (f := fun bs => Pure.pure (g a :: bs)) (n := 0)
      (ih fun b hb => h b (List.mem_cons_of_mem _ hb)) (Costs.pure _)

/-- **A run has its value if the maximum allows its cost, and else it fails.** -/
theorem Costs.run {x : Work Nat ε α} {n : Nat} {a : α} (h : Costs maximum error x n a) :
    Metered.run x 0 = if n ≤ maximum then .ok a else .error error := by
  unfold Metered.run
  rw [h 0 (Nat.zero_le _), Nat.zero_add]
  split_ifs <;> rfl

/-- What is cheaper has its value whenever the dearer has. -/
theorem Costs.run_ok {x : Work Nat ε α} {y : Work Nat ε β} {m n : Nat} {a : α} {b c : β}
    (hx : Costs maximum error x m a) (hy : Costs maximum error y n b) (hmn : m ≤ n)
    (h : Metered.run y 0 = .ok c) : c = b ∧ Metered.run x 0 = .ok a := by
  rw [hy.run] at h
  split_ifs at h with hn
  exact ⟨(Except.ok.inj h).symm, by rw [hx.run, if_pos (by omega)]⟩

end Metered
