import Mathlib.Data.List.Basic
import Mathlib.Tactic.Common

/-!
# Three-valued conjunction and disjunction

Strong Kleene logic: `none` is a value that is not known. The conjunction and the disjunction of a
list depend on the set of its values only (`all_congr`, `any_congr`), and on a part of the list
through its value only (`all_append`, `any_append`).
-/

namespace Kleene

/-- Conjunction. -/
def and : Option Bool → Option Bool → Option Bool
  | some false, _ => some false
  | some true, b => b
  | none, some false => some false
  | none, _ => none

/-- Disjunction. -/
def or : Option Bool → Option Bool → Option Bool
  | some true, _ => some true
  | some false, b => b
  | none, some true => some true
  | none, _ => none

/-- The conjunction of a list. -/
def all : List (Option Bool) → Option Bool
  | [] => some true
  | v :: vs => and v (all vs)

/-- The disjunction of a list. -/
def any : List (Option Bool) → Option Bool
  | [] => some false
  | v :: vs => or v (any vs)

@[simp] theorem not_not (v : Option Bool) : (v.map (! ·)).map (! ·) = v := by
  rcases v with _ | _ | _ <;> rfl

theorem and_assoc (a b c : Option Bool) : and (and a b) c = and a (and b c) := by
  rcases a with _ | _ | _ <;> rcases b with _ | _ | _ <;> rcases c with _ | _ | _ <;> rfl

theorem or_assoc (a b c : Option Bool) : or (or a b) c = or a (or b c) := by
  rcases a with _ | _ | _ <;> rcases b with _ | _ | _ <;> rcases c with _ | _ | _ <;> rfl

@[simp] theorem true_and (v : Option Bool) : and (some true) v = v := rfl

@[simp] theorem false_or (v : Option Bool) : or (some false) v = v := rfl

@[simp] theorem true_or (v : Option Bool) : or (some true) v = some true := rfl

@[simp] theorem or_true (v : Option Bool) : or v (some true) = some true := by
  rcases v with _ | _ | _ <;> rfl

@[simp] theorem all_singleton (v : Option Bool) : all [v] = v := by
  rcases v with _ | _ | _ <;> rfl

@[simp] theorem any_singleton (v : Option Bool) : any [v] = v := by
  rcases v with _ | _ | _ <;> rfl

theorem all_append (xs ys : List (Option Bool)) : all (xs ++ ys) = and (all xs) (all ys) := by
  induction xs with
  | nil => rfl
  | cons x xs ih => rw [List.cons_append, all, ih, all, and_assoc]

theorem any_append (xs ys : List (Option Bool)) : any (xs ++ ys) = or (any xs) (any ys) := by
  induction xs with
  | nil => rfl
  | cons x xs ih => rw [List.cons_append, any, ih, any, or_assoc]

theorem and_eq_false_iff {a b : Option Bool} :
    and a b = some false ↔ some false = a ∨ some false = b := by
  rcases a with _ | _ | _ <;> rcases b with _ | _ | _ <;> simp [and]

theorem and_eq_true_iff {a b : Option Bool} :
    and a b = some true ↔ a = some true ∧ b = some true := by
  rcases a with _ | _ | _ <;> rcases b with _ | _ | _ <;> simp [and]

theorem or_eq_true_iff {a b : Option Bool} :
    or a b = some true ↔ some true = a ∨ some true = b := by
  rcases a with _ | _ | _ <;> rcases b with _ | _ | _ <;> simp [or]

theorem or_eq_false_iff {a b : Option Bool} :
    or a b = some false ↔ a = some false ∧ b = some false := by
  rcases a with _ | _ | _ <;> rcases b with _ | _ | _ <;> simp [or]

theorem all_eq_false_iff {vs : List (Option Bool)} : all vs = some false ↔ some false ∈ vs := by
  induction vs with
  | nil => simp [all]
  | cons v vs ih => rw [all, and_eq_false_iff, List.mem_cons, ← ih, eq_comm (b := all vs)]

theorem all_eq_true_iff {vs : List (Option Bool)} :
    all vs = some true ↔ ∀ v ∈ vs, v = some true := by
  induction vs with
  | nil => simp [all]
  | cons v vs ih => rw [all, and_eq_true_iff, List.forall_mem_cons, ih]

theorem any_eq_true_iff {vs : List (Option Bool)} : any vs = some true ↔ some true ∈ vs := by
  induction vs with
  | nil => simp [any]
  | cons v vs ih => rw [any, or_eq_true_iff, List.mem_cons, ← ih, eq_comm (b := any vs)]

theorem any_eq_false_iff {vs : List (Option Bool)} :
    any vs = some false ↔ ∀ v ∈ vs, v = some false := by
  induction vs with
  | nil => simp [any]
  | cons v vs ih => rw [any, or_eq_false_iff, List.forall_mem_cons, ih]

/-- A three-valued result is given by when it is true and when it is false. -/
theorem ext {a b : Option Bool} (htrue : a = some true ↔ b = some true)
    (hfalse : a = some false ↔ b = some false) : a = b := by
  rcases a with _ | _ | _ <;> rcases b with _ | _ | _ <;> simp_all

theorem all_congr {vs ws : List (Option Bool)} (h : ∀ v, v ∈ vs ↔ v ∈ ws) : all vs = all ws := by
  refine ext ?_ ?_
  · rw [all_eq_true_iff, all_eq_true_iff]
    exact forall_congr' fun v => by rw [h]
  · rw [all_eq_false_iff, all_eq_false_iff, h]

theorem any_congr {vs ws : List (Option Bool)} (h : ∀ v, v ∈ vs ↔ v ∈ ws) : any vs = any ws := by
  refine ext ?_ ?_
  · rw [any_eq_true_iff, any_eq_true_iff, h]
  · rw [any_eq_false_iff, any_eq_false_iff]
    exact forall_congr' fun v => by rw [h]

end Kleene
